/-
# What links carry

The frames written on a link, by the link's position, and what the operations
on handles do to them: opening a handle writes nothing (`sentAt_of_openHandle`),
and a write that succeeds puts one frame at the end of what its own link has
carried (`sentAt_of_write`).

Which handles are open is read off the handles there ever were (`openHandles`): opening
one puts it at the end, closing one takes it out, and nothing else changes them.

Whether an interface can be opened depends on its name alone and is changed by
none of these, so the outcome of an open can be told before others are made.
-/

import Lldp.Loopback
import Mathlib.Data.List.Induction
import Mathlib.Data.List.Nodup
import Mathlib.Tactic.SplitIfs

namespace Lldp
namespace Loopback

variable {lo lo' : Loopback} {name filter : String} {patience handle link : Nat} {bytes : Octets}

/-- The frames written on a link so far; none where there is no link yet. -/
def sentAt (lo : Loopback) (link : Nat) : List Octets :=
  (lo.links[link]?).elim [] Link.sent

/-- What a change leaves alone is the same on all links. -/
theorem elim_modify {β : Type} {f : Link → β} {b : β} {links : List Link} {i : Nat}
    {change : Link → Link} (h : ∀ l, f (change l) = f l) :
    ((links.modify i change)[link]?).elim b f = (links[link]?).elim b f := by
  rw [List.getElem?_modify]
  cases links[link]? with
  | none => rfl
  | some l =>
    simp only [Option.map_eq_map, Option.map_some, Option.elim_some]
    split_ifs
    · exact h l
    · rfl

/-- Whatever is read off a link stays as it is when the link of a name is changed in
something else, and a new link has nothing. -/
theorem elim_onLink {β : Type} {f : Link → β} {b : β} {change : Link → Link}
    (h : ∀ l, f (change l) = f l) (hnew : f { name } = b) :
    ((lo.onLink name change).2.links[link]?).elim b f = (lo.links[link]?).elim b f := by
  unfold onLink
  split
  · exact elim_modify h
  · rcases Nat.lt_trichotomy link lo.links.length with hlt | rfl | hgt
    · rw [List.getElem?_append_left hlt]
    · rw [List.getElem?_concat_length, List.getElem?_eq_none (Nat.le_refl _)]
      exact (h _).trans hnew
    · rw [List.getElem?_eq_none (by simp; omega), List.getElem?_eq_none (by omega)]

/-- Changing a link in what was not written on it is no write. -/
theorem sentAt_onLink {change : Link → Link} (h : ∀ l, (change l).sent = l.sent) :
    (lo.onLink name change).2.sentAt link = lo.sentAt link :=
  elim_onLink h rfl

/-- A change of a link does not change which interfaces can be opened. -/
theorem failingOpens_onLink {change : Link → Link} :
    (lo.onLink name change).2.failingOpens = lo.failingOpens := by
  unfold onLink
  split <;> rfl

/-- Nor does it open or close a handle. -/
theorem handles_onLink {change : Link → Link} :
    (lo.onLink name change).2.handles = lo.handles := by
  unfold onLink
  split <;> rfl

/-! ### Opening -/

/-- **An interface that cannot be opened is refused by name.** -/
theorem openHandle_of_mem (h : name ∈ lo.failingOpens) :
    lo.openHandle name patience filter = .error (.openFailed name) := by
  rw [openHandle, if_pos h]

/-- **Any other interface is opened under the next number.** -/
theorem openHandle_of_notMem (patience : Nat) (filter : String) (h : name ∉ lo.failingOpens) :
    ∃ lo', lo.openHandle name patience filter = .ok (lo.handles.length, lo') := by
  rw [openHandle, if_neg h]
  exact ⟨_, congrArg (fun hs : List Handle => Except.ok (hs.length, _)) handles_onLink⟩

/-- To open one interface does not change which ones can be opened. -/
theorem failingOpens_of_openHandle
    (h : lo.openHandle name patience filter = .ok (handle, lo')) :
    lo'.failingOpens = lo.failingOpens := by
  unfold openHandle at h
  split_ifs at h
  cases h
  exact failingOpens_onLink

/-- To open a handle writes nothing. -/
theorem sentAt_of_openHandle (h : lo.openHandle name patience filter = .ok (handle, lo')) :
    lo'.sentAt link = lo.sentAt link := by
  unfold openHandle at h
  split_ifs at h
  cases h
  exact sentAt_onLink fun _ => rfl

/-! ### Open handles -/

/-- A handle was opened and is not closed. -/
def isOpen (lo : Loopback) (handle : Nat) : Bool := lo.handles[handle]?.any (!·.closed)

/-- The handles that are not closed, in the order in which they were opened. -/
def openHandles (lo : Loopback) : List Nat :=
  (List.range lo.handles.length).filter lo.isOpen

/-- Those are all the handles that are open. -/
theorem mem_openHandles : handle ∈ lo.openHandles ↔ lo.isOpen handle = true := by
  simp only [openHandles, List.mem_filter, List.mem_range, and_iff_right_iff_imp]
  intro h
  obtain ⟨hd, hhd, -⟩ := (Option.any_eq_true ..).1 h
  exact (List.getElem?_eq_some_iff.1 hhd).1

/-- Nothing but the handles tells which of them are open. -/
theorem openHandles_congr (h : lo'.handles = lo.handles) : lo'.openHandles = lo.openHandles := by
  have hopen : lo'.isOpen = lo.isOpen := by
    funext k
    rw [isOpen, isOpen, h]
  rw [openHandles, openHandles, h, hopen]

/-- No handle is listed twice. -/
theorem nodup_openHandles : lo.openHandles.Nodup := List.nodup_range.filter _

/-- There are as many as handles that do not count as closed. -/
theorem length_openHandles :
    lo.openHandles.length = (lo.handles.filter (!·.closed)).length := by
  have hcount : ∀ hs : List Handle,
      ((List.range hs.length).filter fun k => hs[k]?.any (!·.closed)).length =
        (hs.filter (!·.closed)).length := by
    intro hs
    induction hs using List.reverseRecOn with
    | nil => rfl
    | append_singleton hs hd ih =>
      have hold : (List.range hs.length).filter (fun k => (hs ++ [hd])[k]?.any (!·.closed)) =
          (List.range hs.length).filter fun k => hs[k]?.any (!·.closed) := by
        refine List.filter_congr fun k hk => ?_
        rw [List.getElem?_append_left (List.mem_range.1 hk)]
      rw [List.length_append, List.length_singleton, List.range_succ, List.filter_append, hold,
        List.length_append, ih, List.filter_append, List.length_append]
      simp [List.filter_cons, apply_ite List.length]
  exact hcount lo.handles

/-- **The handle that is opened** is the next one, and leads to a link of that name. -/
theorem handles_of_openHandle (h : lo.openHandle name patience filter = .ok (handle, lo')) :
    handle = lo.handles.length ∧
      ∃ link, lo'.handles = lo.handles ++ [{ link, interface := name, patience }] := by
  unfold openHandle at h
  split_ifs at h
  obtain ⟨hnumber, hlo⟩ := Prod.mk.inj (Except.ok.inj h)
  rw [← hnumber, ← hlo]
  exact ⟨congrArg List.length handles_onLink, _,
    congrArg (· ++ [(_ : Handle)]) handles_onLink⟩

/-- **A handle that is opened** comes last. -/
theorem openHandles_of_openHandle (h : lo.openHandle name patience filter = .ok (handle, lo')) :
    lo'.openHandles = lo.openHandles ++ [lo.handles.length] := by
  obtain ⟨-, link, hhandles⟩ := handles_of_openHandle h
  have hold : (List.range lo.handles.length).filter lo'.isOpen = lo.openHandles := by
    refine List.filter_congr fun k hk => ?_
    rw [isOpen, isOpen, hhandles, List.getElem?_append_left (List.mem_range.1 hk)]
  have hnew : lo'.isOpen lo.handles.length = true := by
    rw [isOpen, hhandles, List.getElem?_concat_length]
    rfl
  rw [openHandles, hhandles, List.length_append, List.length_singleton, List.range_succ,
    List.filter_append, hold, List.filter_cons_of_pos hnew, List.filter_nil]

/-- A handle that is closed is not open, and all others are as they were. -/
theorem isOpen_close {k : Nat} :
    (lo.close handle).isOpen k = (lo.isOpen k && k ≠ handle) := by
  simp only [isOpen, close, List.getElem?_modify]
  by_cases hk : k = handle
  · subst hk
    cases lo.handles[k]? <;> simp
  · cases lo.handles[k]? <;> simp [hk, Ne.symm hk]

/-- **A handle that is closed** is taken out. -/
theorem openHandles_close : (lo.close handle).openHandles = lo.openHandles.filter (· ≠ handle) := by
  have hlength : (lo.close handle).handles.length = lo.handles.length := List.length_modify ..
  rw [openHandles, openHandles, hlength, List.filter_filter]
  refine List.filter_congr fun k _ => ?_
  rw [isOpen_close, Bool.and_comm]

/-! ### Writing -/

/-- Access is given to a handle that was opened, with the link it was opened on. -/
theorem of_access {hd : Handle} {l : Link} (h : lo.access handle = .ok (hd, l)) :
    lo.handles[handle]? = some hd ∧ lo.links[hd.link]? = some l := by
  unfold access at h
  split at h
  · cases h
  · split_ifs at h
    split at h
    · cases h
    · cases h
      exact ⟨‹_›, ‹_›⟩

/-- Access is given through an open handle. -/
theorem isOpen_of_access {hd : Handle} {l : Link} (h : lo.access handle = .ok (hd, l)) :
    lo.isOpen handle = true := by
  unfold access at h
  split at h
  · cases h
  · rename_i hd' hhd
    split_ifs at h with hclosed
    rw [isOpen, hhd, Option.any_some]
    simpa using hclosed

/-- Writing opens and closes no handle. -/
theorem handles_of_write (h : lo.write handle bytes = .ok lo') : lo'.handles = lo.handles := by
  unfold write at h
  split at h
  · cases h
  · split_ifs at h
    obtain rfl := Except.ok.inj h
    rfl

/-- **A write that succeeds puts one frame on the link of its handle, and
nothing on any other.** -/
theorem sentAt_of_write (h : lo.write handle bytes = .ok lo') :
    ∃ hd, lo.handles[handle]? = some hd ∧
      ∀ link, lo'.sentAt link = lo.sentAt link ++ if link = hd.link then [bytes] else [] := by
  unfold write at h
  split at h
  · cases h
  · rename_i hd l hacc
    split_ifs at h
    cases h
    obtain ⟨hhd, hl⟩ := of_access hacc
    refine ⟨hd, hhd, fun link => ?_⟩
    simp only [sentAt, List.getElem?_modify]
    by_cases he : link = hd.link
    · subst he
      simp [hl]
    · simp [he, Ne.symm he]

end Loopback
end Lldp
