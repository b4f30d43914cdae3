/-
# What reads return

Frames are injected on links, handles are opened and closed, and reads that were begun
through them take turns, in any order and with any time in between (`ReadLog.Move`).  A log
of that keeps, beside the links, on which interface each read was begun.

Whatever happens, a frame that is injected comes last among those that wait on its interface
(`Wired.unreadOn_inject`), a read that ends with a frame has taken the first
(`Wired.unreadOn_serve`), and nothing else touches them.  So what the reads of an interface
have returned, in the order in which they ended, and then what waits there, is what was
injected (`ReadLog.adds_ofMoves`).

Reads that are run until all have ended make such moves (`ReadLog.leads_runOut`).
-/

import Lldp.Loopback.Reads
import Lldp.Proofs.Machine
import Lldp.Proofs.Queues
import Lldp.Proofs.Station.Order

namespace Lldp
namespace Loopback

variable {lo lo' : Loopback} {name other : String} {handle link now ticket : Nat}
  {bytes : Octets} {frames : List Octets} {change : Link → Link} {l m : Link} {hd : Handle}

/-- The frames that wait to be read on an interface. -/
def unreadOn (lo : Loopback) (name : String) : List Octets :=
  (lo.link? name).elim [] Link.unread

/-- Whatever is read off the link that is found stays as it is when a link is changed in
something else. -/
theorem elim_find?_modify {β : Type} {f : Link → β} {b : β} {p : Link → Bool}
    (hp : ∀ l, p (change l) = p l) (hf : ∀ l, f (change l) = f l) (links : List Link) :
    ((links.modify link change).find? p).elim b f = (links.find? p).elim b f := by
  induction links generalizing link with
  | nil => rw [List.modify_nil]
  | cons l links ih =>
    cases link with
    | zero =>
      rw [List.modify_zero_cons, List.find?_cons, List.find?_cons, hp]
      cases p l
      · rfl
      · exact hf l
    | succ link =>
      rw [List.modify_succ_cons, List.find?_cons, List.find?_cons]
      cases p l
      · exact ih
      · rfl

/-- A link that keeps its name and its frames has the same frames waiting. -/
theorem unreadOn_modify (hlabel : ∀ l, (change l).name = l.name ∧ (change l).gone = l.gone)
    (hunread : ∀ l, (change l).unread = l.unread) :
    { lo with links := lo.links.modify link change }.unreadOn name = lo.unreadOn name :=
  elim_find?_modify (fun l => by rw [(hlabel l).1, (hlabel l).2]) hunread lo.links

/-- **Changing the link of a name** changes what the name leads to, and no other. -/
theorem Wired.link?_onLink (h : lo.Wired)
    (hlabel : ∀ l, (change l).name = l.name ∧ (change l).gone = l.gone) :
    (lo.onLink name change).2.link? other =
      if other = name then some (change ((lo.link? name).getD { name })) else lo.link? other := by
  have hwired : (lo.onLink name change).2.Wired := h.onLink hlabel
  rcases h.onLink_cases name change with ⟨k, l, hl, rfl, heq⟩ | ⟨hnew, heq⟩
  · have hmem := List.mem_of_getElem? hl
    rw [heq] at hwired ⊢
    split_ifs with hother
    · rw [hother, h.link?_eq_some_iff.2 ⟨hmem, rfl⟩, Option.getD_some]
      refine hwired.link?_eq_some_iff.2 ⟨?_, (hlabel l).1⟩
      exact List.mem_map.2 ⟨l, hmem, if_pos rfl⟩
    · cases hm : lo.link? other with
      | some m =>
        obtain ⟨hmem', rfl⟩ := h.link?_eq_some_iff.1 hm
        exact hwired.link?_eq_some_iff.2 ⟨List.mem_map.2 ⟨m, hmem', if_neg hother⟩, rfl⟩
      | none =>
        have hnone := h.link?_eq_none_iff.1 hm
        refine hwired.link?_eq_none_iff.2 fun m hm => ?_
        obtain ⟨m', hm', rfl⟩ := List.mem_map.1 hm
        split_ifs
        · rw [(hlabel m').1]
          exact hnone m' hm'
        · exact hnone m' hm'
  · rw [heq] at hwired ⊢
    have hnone : lo.link? name = none := h.link?_eq_none_iff.2 hnew
    split_ifs with hother
    · rw [hother, hnone, Option.getD_none]
      exact hwired.link?_eq_some_iff.2 ⟨List.mem_concat_self, (hlabel _).1⟩
    · cases hm : lo.link? other with
      | some m =>
        obtain ⟨hmem, rfl⟩ := h.link?_eq_some_iff.1 hm
        exact hwired.link?_eq_some_iff.2 ⟨List.mem_append_left _ hmem, rfl⟩
      | none =>
        refine hwired.link?_eq_none_iff.2 fun m hm' => ?_
        rcases List.mem_append.1 hm' with hold | hlast
        · exact h.link?_eq_none_iff.1 hm m hold
        · rw [List.mem_singleton.1 hlast, (hlabel _).1]
          exact Ne.symm hother

/-- So has every interface, if the link may be a new one. -/
theorem Wired.unreadOn_onLink (h : lo.Wired)
    (hlabel : ∀ l, (change l).name = l.name ∧ (change l).gone = l.gone)
    (hunread : ∀ l, (change l).unread = l.unread) :
    (lo.onLink name change).2.unreadOn other = lo.unreadOn other := by
  rw [unreadOn, h.link?_onLink hlabel]
  split_ifs with hother
  · rw [Option.elim_some, hunread, hother, unreadOn]
    cases lo.link? name <;> rfl
  · rfl

/-- **Frames that are injected come last** on their interface. -/
theorem Wired.unreadOn_inject (h : lo.Wired) :
    (lo.inject name frames).unreadOn other =
      lo.unreadOn other ++ if other = name then frames else [] := by
  have hlink : (lo.inject name frames).link? other = if other = name
      then some { (lo.link? name).getD { name } with
        unread := ((lo.link? name).getD { name }).unread ++ frames }
      else lo.link? other := h.link?_onLink fun _ => ⟨rfl, rfl⟩
  rw [unreadOn, hlink]
  split_ifs with hother
  · rw [hother, Option.elim_some, unreadOn]
    cases lo.link? name <;> rfl
  · exact (List.append_nil _).symm

/-- To open a handle reads nothing. -/
theorem Wired.unreadOn_openHandle {patience : Nat} {filter : String} (h : lo.Wired)
    (hopen : lo.openHandle name patience filter = .ok (handle, lo')) :
    lo'.unreadOn other = lo.unreadOn other := by
  obtain rfl := of_openHandle hopen
  exact h.unreadOn_onLink (fun _ => ⟨rfl, rfl⟩) fun _ => rfl

/-- What is written is not read back. -/
theorem unreadOn_write (h : lo.write handle bytes = .ok lo') :
    lo'.unreadOn name = lo.unreadOn name := by
  unfold write at h
  split at h
  · cases h
  · split_ifs at h
    obtain rfl := Except.ok.inj h
    exact unreadOn_modify (fun _ => ⟨rfl, rfl⟩) fun _ => rfl

/-- A read that queues has not read yet. -/
theorem unreadOn_queueReader :
    (lo.queueReader handle ticket).unreadOn name = lo.unreadOn name := by
  unfold queueReader
  cases lo.handles[handle]? with
  | none => rfl
  | some hd => exact unreadOn_modify (fun _ => ⟨rfl, rfl⟩) fun _ => rfl

/-- **A turn that ends** takes the first frame of its interface, if it got one. -/
theorem Wired.unreadOn_serve (h : lo.Wired) (hl : lo.links[link]? = some l) :
    lo.unreadOn other =
      (if other = l.name then (l.serve now).1.elim [] (·.2.got) else []) ++
        (lo.serve link now).2.unreadOn other := by
  have hserve : lo.serve link now =
      ((l.serve now).1, { lo with links := lo.links.set link (l.serve now).2 }) := by
    rw [serve, hl]
  obtain ⟨hunread, -, ⟨hname, -⟩, -⟩ := Link.of_serve (Prod.eta (l.serve now)).symm
  have hwired : (lo.serve link now).2.Wired :=
    h.of_handles (labels_of_serve rfl) (by rw [hserve])
  have hat : (lo.serve link now).2.links[link]? = some (l.serve now).2 := by
    rw [hserve]
    exact List.getElem?_set_self (List.getElem?_eq_some_iff.1 hl).1
  rw [unreadOn, unreadOn]
  by_cases hother : other = l.name
  · rw [if_pos hother, h.link?_eq_some_iff.2 ⟨List.mem_of_getElem? hl, hother.symm⟩,
      hwired.link?_eq_some_iff.2 ⟨List.mem_of_getElem? hat, hname.trans hother.symm⟩]
    exact hunread
  · rw [if_neg hother, List.nil_append]
    refine congrArg (Option.elim · [] Link.unread) (Option.ext fun m => ?_)
    rw [h.link?_eq_some_iff, hwired.link?_eq_some_iff, hserve]
    refine and_congr_left fun hm => ?_
    constructor
    · intro hmem
      obtain ⟨k, hk⟩ := List.mem_iff_getElem?.1 hmem
      have hne : link ≠ k := by
        rintro rfl
        rw [hl] at hk
        obtain rfl := Option.some.inj hk
        exact hother hm.symm
      exact List.mem_of_getElem? ((List.getElem?_set_ne hne).trans hk)
    · intro hmem
      rcases List.mem_or_eq_of_mem_set hmem with hold | rfl
      · exact hold
      · exact absurd (hm.symm.trans hname) hother

/-! ### Reads that queue -/

/-- A read that queues was given access. -/
theorem queueRead_of_error {e : Error} (h : lo.access handle = .error e) :
    lo.queueRead handle ticket = .error e := by
  rw [queueRead, h]
  rfl

/-- A read through a handle that may be used queues on its link. -/
theorem queueRead_of_access (h : lo.access handle = .ok (hd, l)) :
    lo.queueRead handle ticket = .ok (lo.queueReader handle ticket) := by
  rw [queueRead, h]
  rfl

/-- Only through such a handle does a read queue. -/
theorem of_queueRead (h : lo.queueRead handle ticket = .ok lo') :
    ∃ found, lo.access handle = .ok found ∧ lo' = lo.queueReader handle ticket := by
  unfold queueRead at h
  cases hacc : lo.access handle with
  | error e =>
    rw [hacc] at h
    cases h
  | ok found =>
    rw [hacc] at h
    exact ⟨found, rfl, (Except.ok.inj h).symm⟩

/-- The reads that queue on a link were begun on its interface. -/
def Queued (begun : List String) (lo : Loopback) : Prop :=
  ∀ l ∈ lo.links, ∀ r ∈ l.readers, begun[r.ticket]? = some l.name

variable {begun : List String}

/-- Where links are the same, the same reads queue. -/
theorem Queued.of_links (h : lo.Queued begun) (hl : lo'.links = lo.links) : lo'.Queued begun := by
  unfold Queued
  rw [hl]
  exact h

/-- A link that keeps its name and its readers has the reads of its interface. -/
theorem Queued.modify (h : lo.Queued begun)
    (hchange : ∀ l, (change l).name = l.name ∧ (change l).readers = l.readers) :
    { lo with links := lo.links.modify link change }.Queued begun := by
  intro m hm
  obtain ⟨k, hk⟩ := List.mem_iff_getElem?.1 hm
  rw [List.getElem?_modify] at hk
  obtain ⟨l, hl, rfl⟩ := Option.map_eq_some_iff.1 hk
  split_ifs
  · rw [(hchange l).1, (hchange l).2]
    exact h l (List.mem_of_getElem? hl)
  · exact h l (List.mem_of_getElem? hl)

/-- So it has if it may be a new one, on which no read queues. -/
theorem Queued.onLink (h : lo.Queued begun)
    (hchange : ∀ l, (change l).name = l.name ∧ (change l).readers = l.readers) :
    (lo.onLink name change).2.Queued begun := by
  unfold Loopback.onLink
  split
  · exact h.modify hchange
  · intro l hl
    rcases List.mem_append.1 hl with hold | hnew
    · exact h l hold
    · rw [List.mem_singleton.1 hnew, (hchange _).2]
      exact fun r hr => absurd hr List.not_mem_nil

/-- To open a handle begins no read. -/
theorem Queued.openHandle {patience : Nat} {filter : String} (h : lo.Queued begun)
    (hopen : lo.openHandle name patience filter = .ok (handle, lo')) : lo'.Queued begun := by
  obtain rfl := of_openHandle hopen
  have hlinks : (lo.onLink name fun l =>
      { l with opens := l.opens + 1, filter := some filter }).2.Queued begun :=
    h.onLink fun _ => ⟨rfl, rfl⟩
  exact hlinks.of_links rfl

/-- To write begins no read. -/
theorem Queued.write (h : lo.Queued begun) (hw : lo.write handle bytes = .ok lo') :
    lo'.Queued begun := by
  unfold Loopback.write at hw
  split at hw
  · cases hw
  · split_ifs at hw
    obtain rfl := Except.ok.inj hw
    exact h.modify fun _ => ⟨rfl, rfl⟩

/-- A read queues on the link of its handle. -/
theorem Queued.queueReader (h : lo.Queued begun) (hwired : lo.Wired)
    (hhd : lo.handles[handle]? = some hd) :
    (lo.queueReader handle begun.length).Queued (begun ++ [hd.interface]) := by
  have hold : ∀ l ∈ lo.links, ∀ r ∈ l.readers,
      (begun ++ [hd.interface])[r.ticket]? = some l.name := fun l hl r hr => by
    have hbegun := h l hl r hr
    rwa [List.getElem?_append_left (List.getElem?_eq_some_iff.1 hbegun).1]
  simp only [Loopback.queueReader, hhd]
  intro m hm
  obtain ⟨k, hk⟩ := List.mem_iff_getElem?.1 hm
  rw [List.getElem?_modify] at hk
  obtain ⟨l, hl, rfl⟩ := Option.map_eq_some_iff.1 hk
  split_ifs with hlink
  · intro r hr
    rcases List.mem_append.1 hr with hqueued | hnew
    · exact hold l (List.mem_of_getElem? hl) r hqueued
    · obtain ⟨l', hl', hname⟩ := hwired.reach hd (List.mem_of_getElem? hhd)
      rw [hlink, hl] at hl'
      obtain rfl := Option.some.inj hl'
      rw [List.mem_singleton.1 hnew, hname]
      exact List.getElem?_concat_length ..
  · exact hold l (List.mem_of_getElem? hl)

/-- A turn that goes on lets no read in. -/
theorem Queued.serve (h : lo.Queued begun) (hl : lo.links[link]? = some l) :
    (lo.serve link now).2.Queued begun := by
  obtain ⟨-, htickets, ⟨hname, -⟩, -⟩ := Link.of_serve (Prod.eta (l.serve now)).symm
  intro m hm r hr
  rw [Loopback.serve, hl] at hm
  rcases List.mem_or_eq_of_mem_set hm with hold | rfl
  · exact h m hold r hr
  · have hticket : r.ticket ∈ l.readers.map Reader.ticket := by
      rw [htickets]
      exact List.mem_append_right _ (List.mem_map_of_mem hr)
    obtain ⟨r', hr', hsame⟩ := List.mem_map.1 hticket
    rw [hname, ← hsame]
    exact h l (List.mem_of_getElem? hl) r' hr'

end Loopback

/-- Links on a clock, and the interfaces that reads were begun on: the ticket of a read is
its place among them. -/
structure ReadLog where
  run : ReadRun := { loopback := {}, now := 0 }
  begun : List String := []

namespace ReadLog

open Loopback (Queued)

variable {s : ReadLog} {name : String}

/-- What can happen to links and reads. -/
inductive Move where
  /-- Frames are injected, and opens and writes made to fail. -/
  | use (use : LinkUse)
  | openHandle (name : String) (patience : Nat) (filter : String)
  | close (handle : Nat)
  | write (handle : Nat) (bytes : Octets)
  /-- A read is begun. -/
  | read (handle : Nat)
  /-- The read whose turn it is on a link goes on. -/
  | serve (link : Nat)
  | pass (ms : Nat)

def withLoopback (s : ReadLog) (loopback : Loopback) : ReadLog :=
  { s with run := { s.run with loopback } }

def after (s : ReadLog) : Move → ReadLog
  | .use use => s.withLoopback (s.run.loopback.use use)
  | .openHandle name patience filter =>
    match s.run.loopback.openHandle name patience filter with
    | .ok (_, lo) => s.withLoopback lo
    | .error _ => s
  | .close handle => s.withLoopback (s.run.loopback.close handle)
  | .write handle bytes =>
    match s.run.loopback.write handle bytes with
    | .ok lo => s.withLoopback lo
    | .error _ => s
  | .read handle =>
    match s.run.loopback.queueRead handle s.begun.length with
    | .ok lo =>
      let interface := (s.run.loopback.handles[handle]?.map Handle.interface).getD ""
      { s.withLoopback lo with begun := s.begun ++ [interface] }
    | .error _ => s
  | .serve link => { s with run := s.run.serve link }
  | .pass ms => { s with run := { s.run with now := s.run.now + ms } }

/-- What has come of moves, beginning with no links at all. -/
def ofMoves (moves : List Move) : ReadLog := moves.foldl after {}

/-- The frames that wait to be read on an interface. -/
def unread (s : ReadLog) (name : String) : List Octets := s.run.loopback.unreadOn name

/-- The frames that reads of an interface have returned, in the order in which they ended. -/
def returned (s : ReadLog) (name : String) : List Octets :=
  s.run.ended.flatMap fun e => if s.begun[e.1]? = some name then e.2.1.got else []

/-- The frames that a move injects on an interface. -/
def injected (name : String) : Move → List Octets
  | .use (.inject other frames) => if name = other then frames else []
  | _ => []

/-- Handles lead to the links of their interfaces, and tickets to where reads were begun. -/
structure Sound (s : ReadLog) : Prop where
  wired : s.run.loopback.Wired
  queued : s.run.loopback.Queued s.begun
  ended : ∀ e ∈ s.run.ended, e.1 < s.begun.length

/-- What is done to links and reads adds some frames, by interface, to those that were
returned and those that wait, and loses none. -/
structure Adds (s s' : ReadLog) (came : String → List Octets) : Prop where
  sound : s'.Sound
  frames : ∀ name, s'.returned name ++ s'.unread name =
    s.returned name ++ s.unread name ++ came name

/-- Nothing is read and nothing comes. -/
theorem Sound.quiet (h : s.Sound) {lo : Loopback} (hwired : lo.Wired)
    (hqueued : lo.Queued s.begun) (hunread : ∀ name, lo.unreadOn name = s.unread name) :
    Adds s (s.withLoopback lo) fun _ => [] where
  sound := ⟨hwired, hqueued, h.ended⟩
  frames name := by
    rw [List.append_nil, ← hunread]
    rfl

/-- **A read that is begun** returns nothing yet. -/
theorem Sound.read (h : s.Sound) (handle : Nat) : Adds s (s.after (.read handle)) fun _ => [] := by
  rw [ReadLog.after]
  cases hqueue : s.run.loopback.queueRead handle s.begun.length with
  | error e => exact ⟨h, fun name => (List.append_nil _).symm⟩
  | ok lo =>
    obtain ⟨⟨hd, l⟩, hacc, rfl⟩ := Loopback.of_queueRead hqueue
    obtain ⟨hhd, -⟩ := Loopback.of_access hacc
    have hold : ∀ e ∈ s.run.ended, (s.begun ++ [hd.interface])[e.1]? = s.begun[e.1]? :=
      fun e he => List.getElem?_append_left (h.ended e he)
    dsimp only
    rw [hhd, Option.map_some, Option.getD_some]
    refine ⟨⟨?_, h.queued.queueReader h.wired hhd, fun e he => ?_⟩, fun name => ?_⟩
    · exact h.wired.of_handles Loopback.labels_queueReader Loopback.handles_queueReader
    · rw [List.length_append]
      exact Nat.lt_add_right _ (h.ended e he)
    · rw [List.append_nil]
      refine congrArg₂ (· ++ ·) ?_ Loopback.unreadOn_queueReader
      exact List.flatMap_congr fun e he => by
        dsimp only [withLoopback]
        rw [hold e he]

/-- **A turn that goes on** returns what it takes. -/
theorem Sound.serve (h : s.Sound) (link : Nat) : Adds s (s.after (.serve link)) fun _ => [] := by
  cases hl : s.run.loopback.links[link]? with
  | none =>
    have hserve : s.run.serve link = s.run := by
      simp [ReadRun.serve, Loopback.serve, hl]
    rw [ReadLog.after, hserve]
    exact ⟨h, fun name => (List.append_nil _).symm⟩
  | some l =>
    obtain ⟨-, htickets, -, -⟩ := Link.of_serve (Prod.eta (l.serve s.run.now)).symm
    have hbegun : ∀ e ∈ (l.serve s.run.now).1.toList, s.begun[e.1]? = some l.name := by
      intro e he
      have hticket : e.1 ∈ l.readers.map Reader.ticket := by
        rw [htickets]
        exact List.mem_append_left _ (List.mem_map_of_mem he)
      obtain ⟨r, hr, hsame⟩ := List.mem_map.1 hticket
      rw [← hsame]
      exact h.queued l (List.mem_of_getElem? hl) r hr
    have hended : (s.after (.serve link)).run.ended =
        s.run.ended ++ (l.serve s.run.now).1.toList.map fun e => (e.1, e.2, s.run.now) := by
      simp only [ReadLog.after, ReadRun.serve, Loopback.serve, hl]
    refine ⟨⟨?_, h.queued.serve hl, fun e he => ?_⟩, fun name => ?_⟩
    · exact h.wired.of_handles (Loopback.labels_of_serve rfl) (Loopback.handles_of_serve rfl)
    · rw [hended] at he
      rcases List.mem_append.1 he with hold | hnew
      · exact h.ended e hold
      · obtain ⟨e', he', rfl⟩ := List.mem_map.1 hnew
        exact (List.getElem?_eq_some_iff.1 (hbegun e' he')).1
    · have hreturned : (s.after (.serve link)).returned name = s.returned name ++
          if name = l.name then (l.serve s.run.now).1.elim [] (·.2.got) else [] := by
        rw [returned, hended, List.flatMap_append]
        refine congrArg (s.returned name ++ ·) ?_
        cases he : (l.serve s.run.now).1 with
        | none => simp
        | some e =>
          have hat := hbegun e (by rw [he]; exact List.mem_singleton_self e)
          simp [ReadLog.after, hat, eq_comm]
      have hunread : s.unread name =
          (if name = l.name then (l.serve s.run.now).1.elim [] (·.2.got) else []) ++
            (s.after (.serve link)).unread name := h.wired.unreadOn_serve hl
      rw [hreturned, hunread, List.append_nil, List.append_assoc]

/-- **Every move** adds what it injects. -/
theorem Sound.after (h : s.Sound) (m : Move) : Adds s (s.after m) (injected · m) := by
  have hnothing : Adds s s fun _ => [] := ⟨h, fun name => (List.append_nil _).symm⟩
  cases m with
  | use use =>
    cases use with
    | inject other frames =>
      refine ⟨⟨h.wired.use (.inject other frames), h.queued.onLink fun _ => ⟨rfl, rfl⟩, h.ended⟩,
        fun name => ?_⟩
      rw [List.append_assoc]
      exact congrArg (s.returned name ++ ·) h.wired.unreadOn_inject
    | failOpen other fail =>
      exact h.quiet (h.wired.use (.failOpen other fail)) (h.queued.of_links rfl) fun _ => rfl
    | failWrite other fail =>
      exact h.quiet (h.wired.use (.failWrite other fail)) (h.queued.onLink fun _ => ⟨rfl, rfl⟩)
        fun _ => h.wired.unreadOn_onLink (fun _ => ⟨rfl, rfl⟩) fun _ => rfl
  | openHandle other patience filter =>
    rw [ReadLog.after]
    cases hopen : s.run.loopback.openHandle other patience filter with
    | error e => exact hnothing
    | ok opened =>
      exact h.quiet (h.wired.openHandle hopen) (h.queued.openHandle hopen)
        fun _ => h.wired.unreadOn_openHandle hopen
  | close handle => exact h.quiet h.wired.close (h.queued.of_links rfl) fun _ => rfl
  | write handle bytes =>
    rw [ReadLog.after]
    cases hwrite : s.run.loopback.write handle bytes with
    | error e => exact hnothing
    | ok lo =>
      exact h.quiet (h.wired.write hwrite) (h.queued.write hwrite)
        fun _ => Loopback.unreadOn_write hwrite
  | read handle => exact h.read handle
  | serve link => exact h.serve link
  | pass ms => exact ⟨⟨h.wired, h.queued, h.ended⟩, fun name => (List.append_nil _).symm⟩

/-- Before anything happens, nothing was injected and nothing returned. -/
theorem sound_empty : Sound {} where
  wired := ⟨List.nodup_nil, fun _ h => absurd h List.not_mem_nil,
    fun _ h => absurd h List.not_mem_nil⟩
  queued _ h := absurd h List.not_mem_nil
  ended _ h := absurd h List.not_mem_nil

/-- **What reads have returned, and then what waits, is what was injected**, on each
interface. -/
theorem adds_ofMoves (moves : List Move) :
    Adds {} (ofMoves moves) fun name => moves.flatMap (injected name) := by
  induction moves using List.reverseRecOn with
  | nil => exact ⟨sound_empty, fun _ => rfl⟩
  | append_singleton moves m ih =>
    have hlast := ih.sound.after m
    have hmoves : ofMoves (moves ++ [m]) = (ofMoves moves).after m := List.foldl_append
    rw [hmoves]
    refine ⟨hlast.sound, fun name => ?_⟩
    rw [hlast.frames, ih.frames, List.flatMap_append, List.flatMap_singleton, List.append_assoc]

/-! ### What runs makes moves -/

/-- Moves take a log to where a run is, and begin no read. -/
def Leads (s : ReadLog) (now : Nat) (run : ReadRun) : Prop :=
  run.now = now ∧ ∃ moves : List Move, moves.foldl after s = { s with run }

/-- A move that is made last leads on. -/
theorem Leads.concat {now later : Nat} {run run' : ReadRun} (h : s.Leads now run) (m : Move)
    (hmove : after { s with run } m = { s with run := run' }) (hnow : run'.now = later) :
    s.Leads later run' := by
  obtain ⟨-, moves, hmoves⟩ := h
  exact ⟨hnow, moves ++ [m], by rw [List.foldl_append, hmoves]; exact hmove⟩

/-- **Reads that are run until all have ended** go on turn by turn, while time passes. -/
theorem leads_runOut (s : ReadLog) (count : Nat) :
    ∃ now, s.Leads now
      (ReadRun.machine.runOut count s.run.now (ReadRun.machine.settle s.run)).2 := by
  have hsettle : ∀ now run, s.Leads now run → s.Leads now (ReadRun.machine.settle run) :=
    fun now run h => ReadRun.machine.settle_invariant
      (fun link _ h => h.concat (.serve link) rfl h.1) h
  have hrunOut : ∀ now run, s.Leads now run →
      ∃ now', s.Leads now' (ReadRun.machine.runOut count now run).2 := by
    induction count with
    | zero => exact fun now run h => ⟨now, h⟩
    | succ count ih =>
      intro now run h
      rw [Machine.runOut]
      cases hfirst : Machine.earliest? now (ReadRun.machine.timers run) with
      | none => exact ⟨now, h⟩
      | some due =>
        obtain ⟨⟨-, hlt⟩, -⟩ := Machine.earliest?_eq_some_iff.1 hfirst
        obtain ⟨wait, rfl⟩ := Nat.exists_eq_add_of_lt hlt
        have hpass : s.Leads (now + wait + 1) { run with now := now + wait + 1 } :=
          h.concat (.pass (wait + 1)) (by rw [after, h.1]; rfl) rfl
        exact ih _ _ (hsettle _ _ hpass)
  exact hrunOut _ _ (hsettle _ _ ⟨rfl, [], rfl⟩)

end ReadLog
end Lldp
