/-
# Network addresses are told apart by their texts

An IPv4 address is four numbers with dots between them, and no number holds a dot, so the
text gives the numbers back (`Address.ipv4_inj`).

An IPv6 address is eight groups with colons between them, unless there are two zero groups
next to each other: then the first of the longest stretches of zero groups is left out, and
two colons stand in its place (`Address.Shows`).  To find that stretch a scan keeps the best
one so far and the one that goes on (`Address.longestZeros_isFirstLongest`).

A group is never written as nothing.  So what lies between the colons of a text has something
empty in it exactly if a stretch was left out: the first of these ends the groups before the
stretch, and those behind it come after (`Address.Shows.unique`).  How many groups were left
out is what these are short of eight.  The addresses that end in dotted decimal are the ones
whose text has a dot (`Address.ShowsOctets.unique`).
-/

import Lldp.Address
import Lldp.Proofs.Text.Hex

namespace Lldp
namespace Address

variable {a b c d a' b' c' d' : UInt8} {gs gs' : List UInt16} {t : List Char}

/-! ### Dotted decimal -/

/-- The numbers of an IPv4 address as they are written. -/
def decimals (a b c d : UInt8) : List (List Char) :=
  [a, b, c, d].map fun octet => Nat.toDigits 10 octet.toNat

/-- Dotted decimal is four numbers with dots between them. -/
theorem toList_ipv4 (a b c d : UInt8) :
    (ipv4 a b c d).toList = ['.'].intercalate (decimals a b c d) := by
  have hdot : (toString ".").toList = ['.'] := rfl
  simp [ipv4, decimals, List.intercalate, hdot]

/-- What is written of a number is digits. -/
theorem notMem_toDigits {x : Char} (h : x.isDigit = false) (n : Nat) : x ∉ Nat.toDigits 10 n := by
  intro hmem
  rw [Nat.isDigit_of_mem_toDigits (by decide) (by decide) hmem] at h
  cases h

/-- No number has a dot, so what lies between the dots are the numbers. -/
theorem splitOn_ipv4 (a b c d : UInt8) :
    (ipv4 a b c d).toList.splitOn '.' = decimals a b c d := by
  rw [toList_ipv4]
  refine List.splitOn_intercalate '.' (fun number hnumber => ?_) (List.cons_ne_nil _ _)
  obtain ⟨octet, -, rfl⟩ := List.mem_map.1 hnumber
  exact notMem_toDigits rfl _

/-- **Dotted decimal gives the four octets back.** -/
theorem ipv4_inj : ipv4 a b c d = ipv4 a' b' c' d' ↔ a = a' ∧ b = b' ∧ c = c' ∧ d = d' := by
  have hoctet : ∀ {x y : UInt8}, Nat.toDigits 10 x.toNat = Nat.toDigits 10 y.toNat → x = y := by
    intro x y h
    have hback : Function.LeftInverse (fun ds => Nat.ofDigitChars 10 ds 0) (Nat.toDigits 10) :=
      fun _ => Nat.ofDigitChars_ten_toDigits
    exact UInt8.toNat_inj.1 (hback.injective h)
  constructor
  · intro h
    have hnumbers := splitOn_ipv4 a b c d
    rw [h, splitOn_ipv4] at hnumbers
    simp only [decimals, List.map_cons, List.map_nil, List.cons.injEq, and_true] at hnumbers
    obtain ⟨ha, hb, hc, hd⟩ := hnumbers
    exact ⟨(hoctet ha).symm, (hoctet hb).symm, (hoctet hc).symm, (hoctet hd).symm⟩
  · rintro ⟨rfl, rfl, rfl, rfl⟩
    rfl

/-- Dotted decimal has a dot. -/
theorem dot_mem_ipv4 (a b c d : UInt8) : '.' ∈ (ipv4 a b c d).toList := by
  rw [toList_ipv4]
  simp [decimals, List.intercalate]

/-- It has no colon. -/
theorem colon_notMem_ipv4 (a b c d : UInt8) : ':' ∉ (ipv4 a b c d).toList := by
  have hnumber : ∀ n : Nat, ':' ∉ Nat.toDigits 10 n := notMem_toDigits rfl
  rw [toList_ipv4]
  simp [decimals, List.intercalate, hnumber]

/-! ### Stretches of zero groups -/

/-- The stretch has zero groups only. -/
def Run.IsZero (run : Run) (gs : List UInt16) : Prop :=
  ∀ i, run.start ≤ i → i < run.start + run.length → gs[i]? = some 0

/-- The stretch is the first of the longest ones. -/
structure Run.IsFirstLongest (run : Run) (gs : List UInt16) : Prop where
  zero : run.IsZero gs
  longest : ∀ other : Run, other.IsZero gs → other.length ≤ run.length
  first : ∀ other : Run, other.IsZero gs → other.length = run.length → run.start ≤ other.start

namespace Run

variable {run other : Run} {g : UInt16} {pre rest : List UInt16}

/-- A stretch ends where the groups do, or before. -/
theorem IsZero.le_length (h : run.IsZero gs) (hne : 0 < run.length) :
    run.start + run.length ≤ gs.length := by
  have hlast := h (run.start + run.length - 1) (by omega) (by omega)
  have hlt := (List.getElem?_eq_some_iff.1 hlast).1
  omega

/-- A stretch of zero groups is one whatever groups follow. -/
theorem IsZero.append (h : run.IsZero pre) (rest : List UInt16) : run.IsZero (pre ++ rest) := by
  intro i hlow hhigh
  have hzero := h i hlow hhigh
  rw [List.getElem?_append_left (List.getElem?_eq_some_iff.1 hzero).1, hzero]

/-- A stretch is one among the groups but the last, or it ends with that. -/
theorem IsZero.concat_cases (h : run.IsZero (pre ++ [g])) :
    run.IsZero pre ∨ (g = 0 ∧ 0 < run.length ∧ run.start + run.length = pre.length + 1 ∧
      (Run.mk run.start (run.length - 1)).IsZero pre) := by
  have hbefore : ∀ i, i < pre.length → run.start ≤ i → i < run.start + run.length →
      pre[i]? = some 0 := by
    intro i hi hlow hhigh
    have hzero := h i hlow hhigh
    rwa [List.getElem?_append_left hi] at hzero
  by_cases hends : run.start + run.length ≤ pre.length
  · exact Or.inl fun i hlow hhigh => hbefore i (by omega) hlow hhigh
  · by_cases hnone : run.length = 0
    · exact Or.inl fun i hlow hhigh => absurd hhigh (by omega)
    · have hle := h.le_length (Nat.pos_of_ne_zero hnone)
      rw [List.length_append, List.length_singleton] at hle
      have hlast := h pre.length (by omega) (by omega)
      rw [List.getElem?_concat_length] at hlast
      refine Or.inr ⟨Option.some.inj hlast, Nat.pos_of_ne_zero hnone, by omega, ?_⟩
      intro i hlow hhigh
      change run.start ≤ i at hlow
      change i < run.start + (run.length - 1) at hhigh
      exact hbefore i (by omega) hlow (by omega)

/-- **The groups around a stretch** and the stretch itself are all there is. -/
theorem IsZero.eq_append (h : run.IsZero gs) :
    gs.take run.start ++ List.replicate run.length 0 ++ gs.drop (run.start + run.length) = gs := by
  have hzeros : (gs.drop run.start).take run.length = List.replicate run.length 0 := by
    refine List.ext_getElem? fun i => ?_
    rw [List.getElem?_take, List.getElem?_replicate]
    split_ifs with hi
    · rw [List.getElem?_drop]
      exact h _ (Nat.le_add_right _ _) (by omega)
    · rfl
  rw [← hzeros, List.append_assoc, ← List.drop_drop, List.take_append_drop,
    List.take_append_drop]

end Run

/-- Where a scan stands after some groups: the first of the longest stretches among them, and
the longest stretch that ends just there. -/
structure Scanned (pre : List UInt16) (current longest : Run) : Prop where
  best : longest.IsFirstLongest pre
  zero : current.IsZero pre
  ends : 0 < current.length → current.start + current.length = pre.length
  widest : ∀ other : Run, other.IsZero pre → other.start + other.length = pre.length →
    other.length ≤ current.length

namespace Scanned

variable {pre : List UInt16} {current longest : Run} {g : UInt16}

/-- Of no group, the scan knows two empty stretches. -/
theorem nil : Scanned [] ⟨0, 0⟩ ⟨0, 0⟩ := by
  have hzero : ∀ other : Run, other.IsZero [] → other.length = 0 := by
    intro other h
    by_contra hne
    have hle := h.le_length (Nat.pos_of_ne_zero hne)
    rw [List.length_nil] at hle
    omega
  have hempty : Run.IsZero ⟨0, 0⟩ [] := fun i _ hi => absurd hi (Nat.not_lt_zero i)
  exact
    { best := ⟨hempty, fun other h => (hzero other h).le, fun _ _ _ => Nat.zero_le _⟩
      zero := hempty
      ends := fun h => absurd h (by decide)
      widest := fun other h _ => (hzero other h).le }

/-- A zero group makes the stretch that goes on longer, and it may have become the best. -/
theorem zero_group (h : Scanned pre current longest) :
    let grown : Run :=
      if current.length = 0 then ⟨pre.length, 1⟩ else ⟨current.start, current.length + 1⟩
    Scanned (pre ++ [0]) grown (if grown.length > longest.length then grown else longest) := by
  intro grown
  have hgrown : grown.length = current.length + 1 ∧ grown.start + grown.length = pre.length + 1 ∧
      ∀ i, grown.start ≤ i → i < pre.length → pre[i]? = some 0 := by
    simp only [grown]
    split_ifs with hnone
    · exact ⟨by rw [hnone], rfl, fun i hlow hhigh => absurd hhigh (Nat.not_lt.2 hlow)⟩
    · have hends := h.ends (Nat.pos_of_ne_zero hnone)
      exact ⟨rfl, congrArg Nat.succ hends, fun i hlow hhigh => h.zero i hlow (by omega)⟩
  obtain ⟨hlength, hends, hbody⟩ := hgrown
  have hzero : grown.IsZero (pre ++ [0]) := by
    intro i hlow hhigh
    by_cases hi : i < pre.length
    · rw [List.getElem?_append_left hi]
      exact hbody i hlow hi
    · rw [show i = pre.length by omega, List.getElem?_concat_length]
  have hcases : ∀ other : Run, other.IsZero (pre ++ [0]) → other.IsZero pre ∨
      (0 < other.length ∧ other.start + other.length = pre.length + 1 ∧
        other.length ≤ grown.length) := by
    intro other hother
    refine hother.concat_cases.imp_right fun ⟨_, hpos, hend, hshort⟩ => ⟨hpos, hend, ?_⟩
    have hwidest : other.length - 1 ≤ current.length := h.widest _ hshort (by
      show other.start + (other.length - 1) = pre.length
      omega)
    omega
  refine ⟨?best, hzero, fun _ => ?ends, fun other hother hend => ?widest⟩
  case ends => rw [hends, List.length_append, List.length_singleton]
  case widest =>
    rcases hcases other hother with hpre | ⟨-, -, hle⟩
    · -- A stretch before the group ends before it, unless there is nothing to it.
      by_contra hlong
      have hle := hpre.le_length (by omega)
      rw [List.length_append, List.length_singleton] at hend
      omega
    · exact hle
  case best =>
    split_ifs with hbetter
    · refine ⟨hzero, fun other hother => ?_, fun other hother hsame => ?_⟩
      · rcases hcases other hother with hpre | ⟨-, -, hle⟩
        · exact (h.best.longest other hpre).trans (Nat.le_of_lt hbetter)
        · exact hle
      · rcases hcases other hother with hpre | ⟨-, hend, -⟩
        · have hle := h.best.longest other hpre
          omega
        · omega
    · refine ⟨h.best.zero.append _, fun other hother => ?_, fun other hother hsame => ?_⟩
      · rcases hcases other hother with hpre | ⟨-, -, hle⟩
        · exact h.best.longest other hpre
        · omega
      · rcases hcases other hother with hpre | ⟨hpos, hend, -⟩
        · exact h.best.first other hpre hsame
        · have hle := h.best.zero.le_length (by omega)
          omega

/-- Any other group ends it. -/
theorem other_group (h : Scanned pre current longest) (hg : g ≠ 0) :
    Scanned (pre ++ [g]) ⟨0, 0⟩ longest := by
  have hbefore : ∀ other : Run, other.IsZero (pre ++ [g]) → other.IsZero pre := fun other hother =>
    hother.concat_cases.resolve_right fun hlast => hg hlast.1
  refine
    { best := ⟨h.best.zero.append _, fun other hother => h.best.longest other (hbefore _ hother),
        fun other hother => h.best.first other (hbefore _ hother)⟩
      zero := fun i _ hi => absurd hi (Nat.not_lt_zero i)
      ends := fun hpos => absurd hpos (Nat.lt_irrefl 0)
      widest := fun other hother hend => ?_ }
  by_contra hpos
  have hle := (hbefore other hother).le_length (by omega)
  rw [List.length_append, List.length_singleton] at hend
  omega

/-- **Going on with the scan** finds the first of the longest stretches of all groups. -/
theorem longestZeros (h : Scanned pre current longest) (rest : List UInt16) :
    (Address.longestZeros pre.length current longest rest).IsFirstLongest (pre ++ rest) := by
  induction rest generalizing pre current longest with
  | nil =>
    rw [List.append_nil]
    exact h.best
  | cons g rest ih =>
    have hlength : (pre ++ [g]).length = pre.length + 1 := List.length_append
    rw [Address.longestZeros]
    by_cases hg : g = 0
    · subst hg
      have hstep := ih h.zero_group
      rw [hlength, ← List.append_cons] at hstep
      rw [if_pos rfl]
      exact hstep
    · have hstep := ih (h.other_group hg)
      rw [hlength, ← List.append_cons] at hstep
      rw [if_neg hg]
      exact hstep

end Scanned

/-- **The scan finds the first of the longest stretches.** -/
theorem longestZeros_isFirstLongest (gs : List UInt16) :
    (longestZeros 0 ⟨0, 0⟩ ⟨0, 0⟩ gs).IsFirstLongest gs :=
  Scanned.nil.longestZeros gs

/-! ### Groups -/

/-- Groups as they are written, with a colon between them. -/
def joined (gs : List UInt16) : List Char := [':'].intercalate (gs.map Hex.group)

/-- The text shows the groups: all of them, or all but the first of the longest stretches of
zero groups if that is of two at least. -/
inductive Shows (gs : List UInt16) : List Char → Prop
  | whole (none : ∀ run : Run, run.IsZero gs → run.length ≤ 1) : Shows gs (joined gs)
  | short (run : Run) (best : run.IsFirstLongest gs) (two : 1 < run.length) :
    Shows gs (joined (gs.take run.start) ++ [':', ':'] ++
      joined (gs.drop (run.start + run.length)))

/-- The groups are written with a colon between them. -/
theorem joinGroups_eq (gs : List UInt16) : joinGroups gs = joined gs := by
  fun_induction joinGroups gs with
  | case1 => rfl
  | case2 g => simp [joined]
  | case3 g rest hne ih =>
    rw [ih, joined, joined, List.map_cons,
      List.intercalate_cons_of_ne_nil (mt List.map_eq_nil_iff.1 hne), List.append_assoc]
    rfl

/-- **What is written of groups shows them.** -/
theorem ofGroups_shows (gs : List UInt16) : Shows gs (ofGroups gs).toList := by
  have hbest := longestZeros_isFirstLongest gs
  unfold ofGroups
  dsimp only
  rw [joinGroups_eq, joinGroups_eq, joinGroups_eq]
  split_ifs with htwo
  · rw [String.toList_ofList]
    exact .short _ hbest htwo
  · rw [String.toList_ofList]
    exact .whole fun run hrun => (hbest.longest run hrun).trans (Nat.not_lt.1 htwo)

/-- What lies between the colons of groups; of no groups, nothing. -/
def pieces (gs : List UInt16) : List (List Char) :=
  if gs = [] then [[]] else gs.map Hex.group

/-- What lies between the colons of some groups are the groups. -/
theorem pieces_of_ne_nil (h : gs ≠ []) : pieces gs = gs.map Hex.group := if_neg h

/-- No group is written as nothing. -/
theorem nil_notMem_group (gs : List UInt16) : [] ∉ gs.map Hex.group := by
  intro h
  obtain ⟨g, -, hg⟩ := List.mem_map.1 h
  exact Hex.group_ne_nil g hg

/-- **No group has a colon**, so the colons tell the groups apart. -/
theorem splitOn_joined (gs : List UInt16) : (joined gs).splitOn ':' = pieces gs := by
  rw [pieces]
  split_ifs with hnil
  · rw [hnil]
    rfl
  · refine List.splitOn_intercalate ':' (fun piece hpiece hcolon => ?_)
      (mt List.map_eq_nil_iff.1 hnil)
    obtain ⟨g, -, rfl⟩ := List.mem_map.1 hpiece
    exact absurd (Hex.group_subset g hcolon) (by decide)

/-- Groups are told by what lies between the colons. -/
theorem pieces_injective : Function.Injective pieces := by
  intro gs gs' h
  unfold pieces at h
  split_ifs at h with hnil hnil' hnil'
  · rw [hnil, hnil']
  · exact absurd (h ▸ List.mem_singleton_self _) (nil_notMem_group gs')
  · exact absurd (h ▸ List.mem_singleton_self _) (nil_notMem_group gs)
  · exact List.map_injective_iff.2 Hex.group_injective h

/-- Where groups are left out, something empty lies between the colons. -/
theorem splitOn_short (left right : List UInt16) :
    (joined left ++ [':', ':'] ++ joined right).splitOn ':' = pieces left ++ [] :: pieces right := by
  rw [List.append_assoc]
  show (joined left ++ ':' :: ([] ++ ':' :: joined right)).splitOn ':' = _
  rw [List.splitOn_append_cons_self, List.splitOn_append_cons_self, splitOn_joined, splitOn_joined]
  rfl

/-- **The first empty piece** tells what stands before a stretch from what stands behind. -/
theorem eq_of_pieces {left left' right right' : List UInt16}
    (h : pieces left ++ [] :: pieces right = pieces left' ++ [] :: pieces right') :
    left = left' ∧ right = right' := by
  have hhead : ∀ {gs xs ys}, gs ≠ [] → [] :: xs ≠ pieces gs ++ ys := by
    intro gs xs ys hne heq
    obtain ⟨g, rest, rfl⟩ := List.exists_cons_of_ne_nil hne
    rw [pieces_of_ne_nil hne, List.map_cons, List.cons_append, List.cons.injEq] at heq
    exact Hex.group_ne_nil g heq.1.symm
  by_cases hnil : left = []
  · by_cases hnil' : left' = []
    · subst hnil hnil'
      exact ⟨rfl, pieces_injective (List.cons.inj (List.append_cancel_left h)).2⟩
    · subst hnil
      exact absurd h (hhead hnil')
  · by_cases hnil' : left' = []
    · subst hnil'
      exact absurd h.symm (hhead hnil)
    · have hsplit := congrArg (List.splitOn []) h
      rw [pieces_of_ne_nil hnil, pieces_of_ne_nil hnil',
        List.splitOn_append_cons_self_of_not_mem (nil_notMem_group _),
        List.splitOn_append_cons_self_of_not_mem (nil_notMem_group _), List.cons.injEq] at hsplit
      obtain rfl := List.map_injective_iff.2 Hex.group_injective hsplit.1
      exact ⟨rfl, pieces_injective (List.cons.inj (List.append_cancel_left h)).2⟩

namespace Shows

/-- A text by what lies between its colons. -/
theorem splitOn_cases (h : Shows gs t) : t.splitOn ':' = pieces gs ∨
    ∃ run : Run, run.IsZero gs ∧ 1 < run.length ∧
      t.splitOn ':' = pieces (gs.take run.start) ++ [] :: pieces (gs.drop (run.start + run.length)) := by
  cases h with
  | whole _ => exact Or.inl (splitOn_joined gs)
  | short run best two => exact Or.inr ⟨run, best.zero, two, splitOn_short _ _⟩

/-- Where there is a stretch of two zero groups, there are groups. -/
theorem nil_notMem_pieces {run : Run} (hzero : run.IsZero gs) (htwo : 1 < run.length)
    (hlength : gs'.length = gs.length) : [] ∉ pieces gs' := by
  have hle := hzero.le_length (by omega)
  have hne : gs' ≠ [] := List.ne_nil_of_length_pos (by omega)
  rw [pieces_of_ne_nil hne]
  exact nil_notMem_group gs'

/-- **A text shows as many groups in one way only.** -/
theorem unique (h : Shows gs t) (h' : Shows gs' t) (hlength : gs.length = gs'.length) :
    gs = gs' := by
  rcases h.splitOn_cases with hwhole | ⟨run, hzero, htwo, hshort⟩
  · rcases h'.splitOn_cases with hwhole' | ⟨run', hzero', htwo', hshort'⟩
    · exact pieces_injective (hwhole.symm.trans hwhole')
    · refine absurd ?_ (nil_notMem_pieces hzero' htwo' hlength)
      rw [← hwhole, hshort']
      exact List.mem_append_right _ List.mem_cons_self
  · rcases h'.splitOn_cases with hwhole' | ⟨run', hzero', htwo', hshort'⟩
    · refine absurd ?_ (nil_notMem_pieces hzero htwo hlength.symm)
      rw [← hwhole', hshort]
      exact List.mem_append_right _ List.mem_cons_self
    · obtain ⟨hleft, hright⟩ := eq_of_pieces (hshort.symm.trans hshort')
      have hcount : run.length = run'.length := by
        have hall := congrArg List.length hzero.eq_append
        have hall' := congrArg List.length hzero'.eq_append
        rw [hleft, hright] at hall
        simp only [List.length_append, List.length_replicate] at hall hall'
        omega
      rw [← hzero.eq_append, ← hzero'.eq_append, hleft, hright, hcount]

/-- More than one group is never without a colon. -/
theorem colon_mem (h : Shows gs t) (htwo : 1 < gs.length) : ':' ∈ t := by
  by_contra hnone
  have hone := congrArg List.length (List.splitOn_eq_singleton hnone)
  rcases h.splitOn_cases with hwhole | ⟨run, -, -, hshort⟩
  · have hne : gs ≠ [] := List.ne_nil_of_length_pos (by omega)
    rw [hwhole, pieces_of_ne_nil hne, List.length_map, List.length_singleton] at hone
    omega
  · have hpieces : ∀ gs, 0 < (pieces gs).length := by
      intro gs
      rw [← splitOn_joined]
      exact List.length_pos_iff.2 (List.splitOn_ne_nil _ _)
    have hleft := hpieces (gs.take run.start)
    rw [hshort, List.length_append, List.length_cons, List.length_singleton] at hone
    omega

/-- Groups are never written with a dot. -/
theorem dot_notMem (h : Shows gs t) : '.' ∉ t := by
  have hgroup : ∀ g : UInt16, '.' ∉ Hex.group g := fun g hdot =>
    absurd (Hex.group_subset g hdot) (by decide)
  have hjoined : ∀ gs : List UInt16, '.' ∉ joined gs := by
    intro gs
    rw [← joinGroups_eq]
    fun_induction joinGroups gs with
    | case1 => exact List.not_mem_nil
    | case2 g => exact hgroup g
    | case3 g rest _ ih => simp [hgroup, ih]
  cases h with
  | whole _ => exact hjoined gs
  | short run _ _ => simp [hjoined]

end Shows

/-! ### IPv6 -/

/-- An address that maps an IPv4 address. -/
def mapped (a b c d : UInt8) : Octets := List.replicate 10 0 ++ [0xff, 0xff, a, b, c, d]

/-- The text is that of an IPv6 address: dotted decimal at its end if an IPv4 address is mapped,
and else groups. -/
def ShowsOctets (bytes : Octets) (s : String) : Prop :=
  (∃ a b c d, bytes = mapped a b c d ∧ s = "::ffff:" ++ ipv4 a b c d) ∨
    ((∀ a b c d, bytes ≠ mapped a b c d) ∧ Shows (toGroups bytes) s.toList)

/-- **What is written of an IPv6 address is its text.** -/
theorem ipv6_shows (bytes : Octets) : ShowsOctets bytes (ipv6 bytes) := by
  unfold ipv6
  split
  · exact Or.inl ⟨_, _, _, _, rfl, rfl⟩
  · rename_i hother
    exact Or.inr ⟨hother, ofGroups_shows _⟩

/-- Octets in pairs are half as many groups, and are given back by these. -/
theorem flatMap_toGroups {bytes : Octets} (h : bytes.length % 2 = 0) :
    (toGroups bytes).flatMap Octets.ofWord = bytes ∧ 2 * (toGroups bytes).length = bytes.length := by
  fun_induction toGroups bytes with
  | case1 hi lo rest ih =>
    rw [List.length_cons, List.length_cons] at h
    obtain ⟨hrest, hlength⟩ := ih (by omega)
    refine ⟨?_, ?_⟩
    · rw [List.flatMap_cons, Octets.ofWord_word, hrest]
      rfl
    · rw [List.length_cons, List.length_cons, List.length_cons]
      omega
  | case2 bytes hfew =>
    rcases bytes with _ | ⟨hi, _ | ⟨lo, rest⟩⟩
    · exact ⟨rfl, rfl⟩
    · cases h
    · exact absurd rfl (hfew hi lo rest)

namespace ShowsOctets

variable {bytes bytes' : Octets} {s : String}

/-- **The text of an IPv6 address shows its octets in one way only.** -/
theorem unique (h : ShowsOctets bytes s) (h' : ShowsOctets bytes' s) (hlength : bytes.length = 16)
    (hlength' : bytes'.length = 16) : bytes = bytes' := by
  have hdot : ∀ a b c d, '.' ∈ ("::ffff:" ++ ipv4 a b c d).toList := by
    intro a b c d
    rw [String.toList_append]
    exact List.mem_append_right _ (dot_mem_ipv4 a b c d)
  rcases h with ⟨a, b, c, d, rfl, rfl⟩ | ⟨-, hshown⟩
  · rcases h' with ⟨a', b', c', d', rfl, heq⟩ | ⟨-, hshown'⟩
    · rw [← String.toList_inj, String.toList_append, String.toList_append,
        List.append_cancel_left_eq, String.toList_inj, ipv4_inj] at heq
      obtain ⟨rfl, rfl, rfl, rfl⟩ := heq
      rfl
    · exact absurd (hdot a b c d) hshown'.dot_notMem
  · rcases h' with ⟨a', b', c', d', rfl, rfl⟩ | ⟨-, hshown'⟩
    · exact absurd (hdot a' b' c' d') hshown.dot_notMem
    · obtain ⟨hback, hhalf⟩ := flatMap_toGroups (show bytes.length % 2 = 0 by omega)
      obtain ⟨hback', hhalf'⟩ := flatMap_toGroups (show bytes'.length % 2 = 0 by omega)
      rw [← hback, ← hback', hshown.unique hshown' (by omega)]

/-- It has a colon. -/
theorem colon_mem (h : ShowsOctets bytes s) (hlength : bytes.length = 16) : ':' ∈ s.toList := by
  rcases h with ⟨a, b, c, d, -, rfl⟩ | ⟨-, hshown⟩
  · rw [String.toList_append]
    exact List.mem_append_left _ (by decide)
  · have hhalf := (flatMap_toGroups (show bytes.length % 2 = 0 by omega)).2
    exact hshown.colon_mem (by omega)

end ShowsOctets

end Address
end Lldp
