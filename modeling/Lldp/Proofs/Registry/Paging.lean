/-
# Paging through the captured ports

A query shows a page of the captured ports and says where the next one begins, or zero if
there is none.  Zero is also where the first page begins, and a row is left out if its
port has no session, so that whoever follows the pages gets every port once is a matter
of two facts: a next page begins behind the one before (`Registry.neighbors_next`), which
also makes the pages end, and every captured port has a session (`Registry.Shows`).

Given the second, a page is a window of the rows (`Shows.entries`), and the pages from
some place on are, put together, the rows from there on (`Shows.flatMap_entries`).
-/

import Lldp.Proofs.Registry.Order
import Lldp.Proofs.Words

namespace Lldp
namespace Registry

variable {r : Registry} {start count k : Nat} {page : NeighborPage} {ss : List Session}

/-! ### One page -/

/-- **Behind the last port, and where nothing is asked for, nothing is shown.** -/
theorem neighbors_of_le (h : r.upPorts.length ≤ start ∨ count = 0) :
    r.neighbors start count = {} := if_pos h

/-- **The next page begins behind the one that is shown**, if there is a port for it. -/
theorem neighbors_next (r : Registry) (start count : Nat) :
    (r.neighbors start count).next =
      if 0 < count ∧ start + count < r.upPorts.length then start + count else 0 := by
  unfold neighbors
  dsimp only
  split_ifs <;> first | rfl | (dsimp only; omega)

/-- A page shows the ports from its start on, as many as are asked for. -/
theorem neighbors_entries (r : Registry) (start count : Nat) :
    (r.neighbors start count).entries =
      ((r.upPorts.drop start).take count).filterMap fun i => (r.session? i).map Session.entry := by
  unfold neighbors
  dsimp only
  split_ifs with hnone hlast
  · rcases hnone with hstart | rfl
    · rw [List.drop_of_length_le hstart, List.take_nil, List.filterMap_nil]
    · rw [List.take_zero, List.filterMap_nil]
  all_goals
    have hwindow : (r.upPorts.drop start).take (min (start + count) r.upPorts.length - start) =
        (r.upPorts.drop start).take count := by
      rw [List.take_eq_take_iff, List.length_drop]
      omega
    dsimp only
    rw [hwindow]

/-- A page says how many rows it has, and has no more than were asked for. -/
theorem neighbors_count (r : Registry) (start count : Nat) :
    (r.neighbors start count).count = (r.neighbors start count).entries.length ∧
      (r.neighbors start count).count ≤ count := by
  have hcount : (r.neighbors start count).count = (r.neighbors start count).entries.length := by
    unfold neighbors
    dsimp only
    split_ifs <;> rfl
  refine ⟨hcount, ?_⟩
  rw [hcount, neighbors_entries]
  exact Nat.le_trans (List.length_filterMap_le _ _) (List.length_take_le _ _)

/-- The page as it is found with words, whose sum stops at the largest word. -/
def neighborsInWords (r : Registry) (start count : UInt64) : NeighborPage :=
  let total := r.upPorts.length
  if start.toNat ≥ total ∨ count = 0 then {}
  else
    let stop := min (Word.saturate (start.toNat + count.toNat)).toNat total
    let entries := ((r.upPorts.drop start.toNat).take (stop - start.toNat)).filterMap fun i =>
      (r.session? i).map Session.entry
    { next := if stop ≥ total then 0 else stop, count := entries.length, entries }

/-- **No sum wraps around** as long as the captured ports can be numbered by words. -/
theorem neighborsInWords_eq (h : r.upPorts.length ≤ Word.maximum) (start count : UInt64) :
    r.neighborsInWords start count = r.neighbors start.toNat count.toNat := by
  have hzero : (count = 0) = (count.toNat = 0) := propext (UInt64.toNat_inj (b := 0)).symm
  unfold neighborsInWords neighbors
  simp only [Word.min_toNat_saturate h, hzero]

/-! ### All pages -/

/-- The pages that are shown to whoever begins at some place and goes on until there is
no next one. -/
def pagesFrom (r : Registry) (count start : Nat) : List NeighborPage :=
  let page := r.neighbors start count
  if page.next = 0 then [page] else page :: r.pagesFrom count page.next
termination_by r.upPorts.length - start
decreasing_by
  rename_i hnext
  rw [neighbors_next] at hnext ⊢
  split_ifs at hnext ⊢ with hmore
  · omega
  · exact absurd rfl hnext

/-- Either the page is the last, or the others begin behind it. -/
theorem pagesFrom_eq (hcount : 0 < count) :
    r.pagesFrom count start = r.neighbors start count ::
      if start + count < r.upPorts.length then r.pagesFrom count (start + count) else [] := by
  rw [pagesFrom, neighbors_next]
  split_ifs <;> first | rfl | omega

/-- **As many pages as it takes**, and one if there is nothing to show. -/
theorem length_pagesFrom (hcount : 0 < count) :
    (r.pagesFrom count start).length =
      max 1 ((r.upPorts.length - start + count - 1) / count) := by
  -- By the pages, of which each brings the start nearer to the end.
  induction hleft : r.upPorts.length - start using Nat.strongRecOn generalizing start with
  | ind left ih =>
    rw [pagesFrom_eq hcount, List.length_cons]
    split_ifs with hmore
    · rw [ih _ (by omega) rfl]
      have hsplit : left + count - 1 = r.upPorts.length - (start + count) + count - 1 + count := by
        omega
      have hpos : 1 ≤ (r.upPorts.length - (start + count) + count - 1) / count :=
        (Nat.one_le_div_iff hcount).2 (by omega)
      rw [hsplit, Nat.add_div_right _ hcount]
      omega
    · have hone : (left + count - 1) / count ≤ 1 :=
        Nat.lt_succ_iff.1 (Nat.div_lt_of_lt_mul (by omega))
      rw [List.length_nil]
      omega

/-- **Each page is the one at its place**, and the last is the one without a next. -/
theorem page_of_pagesFrom (hcount : 0 < count) (h : (r.pagesFrom count start)[k]? = some page) :
    page = r.neighbors (start + k * count) count ∧
      (page.next = 0 ↔ k + 1 = (r.pagesFrom count start).length) := by
  induction k generalizing start with
  | zero =>
    rw [pagesFrom_eq hcount] at h ⊢
    rw [List.getElem?_cons_zero] at h
    obtain rfl := Option.some.inj h
    rw [Nat.zero_mul, Nat.add_zero, List.length_cons, neighbors_next]
    refine ⟨rfl, ?_⟩
    split_ifs with hnext hmore hmore
    · rw [length_pagesFrom hcount]
      omega
    · exact absurd hnext.2 hmore
    · exact absurd ⟨hcount, hmore⟩ hnext
    · exact iff_of_true rfl rfl
  | succ k ih =>
    rw [pagesFrom_eq hcount] at h ⊢
    rw [List.getElem?_cons_succ] at h
    split_ifs at h ⊢ with hmore
    · obtain ⟨hpage, hlast⟩ := ih h
      rw [hlast, List.length_cons, Nat.add_right_cancel_iff, hpage, Nat.add_mul, Nat.one_mul,
        Nat.add_comm (k * count), Nat.add_assoc]
      exact ⟨rfl, Iff.rfl⟩
    · cases h

/-! ### All rows -/

/-- These are the sessions of the captured ports, in their order. -/
structure Shows (r : Registry) (ss : List Session) : Prop where
  upPorts : r.upPorts = ss.map (·.port.ifIndex)
  session : ∀ s ∈ ss, r.session? s.port.ifIndex = some s

/-- Captured ports have sessions. -/
theorem InOrder.exists_shows {starts : List IfIndex} (h : r.InOrder starts) : ∃ ss, r.Shows ss := by
  have hfound : ∀ i ∈ r.upPorts, ∃ s, r.session? i = some s := by
    intro i hi
    obtain ⟨s, hs, -⟩ := (Option.any_eq_true _ _).1 (h.mem_upPorts.1 hi)
    exact ⟨s, hs⟩
  suffices hall : ∀ is : List IfIndex, (∀ i ∈ is, ∃ s, r.session? i = some s) →
      ∃ ss : List Session, is = ss.map (·.port.ifIndex) ∧
        ∀ s ∈ ss, r.session? s.port.ifIndex = some s by
    obtain ⟨ss, hports, hsessions⟩ := hall r.upPorts hfound
    exact ⟨ss, hports, hsessions⟩
  intro is
  induction is with
  | nil => exact fun _ => ⟨[], rfl, fun s hs => absurd hs List.not_mem_nil⟩
  | cons i is ih =>
    intro hfound
    obtain ⟨⟨s, hs⟩, hrest⟩ := List.forall_mem_cons.1 hfound
    obtain ⟨ss, rfl, hss⟩ := ih hrest
    obtain rfl := ifIndex_of_session? hs
    exact ⟨s :: ss, rfl, List.forall_mem_cons.2 ⟨hs, hss⟩⟩

namespace Shows

theorem length_eq (h : r.Shows ss) : ss.length = r.upPorts.length := by
  rw [h.upPorts, List.length_map]

/-- **A page is a window of the rows.** -/
theorem entries (h : r.Shows ss) (start count : Nat) :
    (r.neighbors start count).entries = ((ss.drop start).take count).map Session.entry := by
  rw [neighbors_entries, h.upPorts, ← List.map_drop, ← List.map_take, List.filterMap_map,
    ← List.filterMap_eq_map]
  refine List.filterMap_congr fun s hs => ?_
  have hmem : s ∈ ss := List.mem_of_mem_drop (List.mem_of_mem_take hs)
  simp only [Function.comp, h.session s hmem, Option.map_some]

/-- A page with another one behind it is full. -/
theorem count_of_lt (h : r.Shows ss) (hmore : start + count < r.upPorts.length) :
    (r.neighbors start count).count = count := by
  have hlength := h.length_eq
  rw [(neighbors_count r start count).1, h.entries, List.length_map, List.length_take,
    List.length_drop]
  omega

/-- **Put together, the pages are the rows.** -/
theorem flatMap_entries (h : r.Shows ss) (hcount : 0 < count) (start : Nat) :
    (r.pagesFrom count start).flatMap NeighborPage.entries =
      (ss.drop start).map Session.entry := by
  have hlength := h.length_eq
  induction hleft : r.upPorts.length - start using Nat.strongRecOn generalizing start with
  | ind left ih =>
    rw [pagesFrom_eq hcount, List.flatMap_cons, h.entries]
    split_ifs with hmore
    · rw [ih _ (by omega) _ rfl, ← List.drop_drop, ← List.map_append, List.take_append_drop]
    · rw [List.flatMap_nil, List.append_nil, List.take_of_length_le]
      rw [List.length_drop]
      omega

end Shows

end Registry
end Lldp
