/-
# Opening interfaces in another order

An interface that is opened takes the next handle and the next generation, so which port
has which depends on the order in which ports are started.  `Alike` compares two registries
up to a `Renaming` of both numbers: the same sessions, settings, alarms and links, tasks and
handles that correspond, and behind the ports that were captured and the requests that were
waiting before, the same ports and as many requests in another order.

Two starts that follow each other may change places (`Poised.swap`): the two ports
exchange their numbers.  What is started afterwards does not tell the difference
(`Alike.start`), so starting a list of ports in any order comes to the same
(`followAll_on_perm`).  That some of the interfaces cannot be opened does not matter, since
each start depends on its own port and name (`opens_start`); nor does it matter that ports
share an interface, since a link counts how often it was opened and not for whom
(`Loopback.visit_comm`).
-/

import Lldp.Proofs.Registry.Prompting
import Lldp.Proofs.Registry.Reordering
import Lldp.Proofs.Wiring
import Mathlib.Logic.Equiv.Basic

namespace Lldp

/-! ### Numbers that change places -/

section Lists

variable {α : Type} {xs ys : List α} {x y : α} {σ : Equiv.Perm Nat}

/-- One more entry, at a place that is left alone. -/
theorem getElem?_concat_perm (hlength : ys.length = xs.length)
    (h : ∀ k : Nat, ys[σ k]? = xs[k]?) (hσ : σ xs.length = xs.length) (k : Nat) :
    (ys ++ [x])[σ k]? = (xs ++ [x])[k]? := by
  rcases Nat.lt_trichotomy k xs.length with hlt | rfl | hgt
  · have hσlt : σ k < ys.length :=
      (List.getElem?_eq_some_iff.1 ((h k).trans (List.getElem?_eq_getElem hlt))).1
    rw [List.getElem?_append_left hσlt, List.getElem?_append_left hlt, h k]
  · rw [hσ, List.getElem?_concat_length, ← hlength, List.getElem?_concat_length]
  · have hge : ys.length ≤ σ k := by
      rw [← List.getElem?_eq_none_iff, h k]
      exact List.getElem?_eq_none (Nat.le_of_lt hgt)
    have hne : σ k ≠ ys.length := by
      intro heq
      have hk := σ.injective (heq.trans (hlength.trans hσ.symm))
      omega
    rw [List.getElem?_eq_none, List.getElem?_eq_none]
    · rw [List.length_append, List.length_singleton]
      omega
    · rw [List.length_append, List.length_singleton]
      omega

/-- The last two entries change places. -/
theorem getElem?_swap (k : Nat) :
    (xs ++ [y] ++ [x])[Equiv.swap xs.length (xs.length + 1) k]? = (xs ++ [x] ++ [y])[k]? := by
  have hlast : ∀ a b : α, (xs ++ [a] ++ [b])[xs.length]? = some a ∧
      (xs ++ [a] ++ [b])[xs.length + 1]? = some b := by
    intro a b
    simp
  by_cases hk : k = xs.length
  · rw [hk, Equiv.swap_apply_left, (hlast y x).2, (hlast x y).1]
  · by_cases hk' : k = xs.length + 1
    · rw [hk', Equiv.swap_apply_right, (hlast y x).1, (hlast x y).2]
    · rw [Equiv.swap_apply_of_ne_of_ne hk hk', List.append_assoc, List.append_assoc]
      rcases Nat.lt_or_ge k xs.length with hlt | hge
      · rw [List.getElem?_append_left hlt, List.getElem?_append_left hlt]
      · rw [List.getElem?_eq_none (by simp; omega), List.getElem?_eq_none (by simp; omega)]

end Lists

/-! ### Links and handles -/

/-- A handle without the position of its link, which says how many links came before. -/
def Handle.unplaced (hd : Handle) : Handle := { hd with link := 0 }

namespace Loopback

variable {lo lo' lo₁ lo₂ : Loopback} {name other filter : String} {patience handle : Nat}
  {links links' : List Link} {σ σ' : Equiv.Perm Nat}

/-- A handle, wherever its link is, and the link. -/
def reaches (lo : Loopback) (handle : Nat) : Option (Handle × Option Link) :=
  (lo.handles[handle]?).map fun hd => (hd.unplaced, lo.links[hd.link]?)

/-- The same links, and handles that correspond. -/
structure Alike (σ : Equiv.Perm Nat) (lo lo' : Loopback) : Prop where
  links : lo.links.Perm lo'.links
  handles : ∀ handle, lo'.reaches (σ handle) = lo.reaches handle
  failingOpens : lo'.failingOpens = lo.failingOpens

/-- The handles there ever were, wherever their links are. -/
def unplaced (lo : Loopback) : List Handle := lo.handles.map Handle.unplaced

/-- **Names and handles lead to links** wherever these are. -/
theorem Wired.link?_perm (h : lo.Wired) (h' : lo'.Wired) (hperm : lo.links.Perm lo'.links)
    (name : String) : lo'.link? name = lo.link? name := by
  refine Option.ext fun l => ?_
  rw [h.link?_eq_some_iff, h'.link?_eq_some_iff, hperm.mem_iff]

/-- **A handle leads** to the link that has the name of its interface. -/
theorem Wired.reaches_eq (h : lo.Wired) (handle : Nat) :
    lo.reaches handle = lo.unplaced[handle]?.map fun hd => (hd, lo.link? hd.interface) := by
  rw [reaches, unplaced, List.getElem?_map, Option.map_map]
  cases hhd : lo.handles[handle]? with
  | none => rfl
  | some hd =>
    rw [Option.map_some, Option.map_some, h.link?_interface (List.mem_of_getElem? hhd)]
    rfl

/-- What a handle is without its place on a list is known from where it leads. -/
theorem unplaced_eq (lo : Loopback) (handle : Nat) :
    lo.unplaced[handle]? = (lo.reaches handle).map Prod.fst := by
  rw [unplaced, reaches, List.getElem?_map, Option.map_map]
  rfl

namespace Alike

/-- Handles that correspond are the same but for their places. -/
theorem unplaced (h : Alike σ lo lo') (handle : Nat) :
    lo'.unplaced[σ handle]? = lo.unplaced[handle]? := by
  rw [unplaced_eq, unplaced_eq, h.handles]

/-- Where names lead to links, this is all that it takes. -/
theorem of_unplaced (hw : lo.Wired) (hw' : lo'.Wired) (hlinks : lo.links.Perm lo'.links)
    (hhandles : ∀ handle : Nat, lo'.unplaced[σ handle]? = lo.unplaced[handle]?)
    (hfailing : lo'.failingOpens = lo.failingOpens) : Alike σ lo lo' := by
  refine ⟨hlinks, fun handle => ?_, hfailing⟩
  rw [hw'.reaches_eq, hw.reaches_eq, hhandles]
  simp only [hw.link?_perm hw' hlinks]

/-- Links are like themselves. -/
theorem refl (lo : Loopback) : Alike (Equiv.refl Nat) lo lo := ⟨.refl _, fun _ => rfl, rfl⟩

/-- What is alike to something that is alike is alike. -/
theorem trans (h : Alike σ lo lo₁) (h' : Alike σ' lo₁ lo₂) : Alike (σ.trans σ') lo lo₂ where
  links := h.links.trans h'.links
  handles handle := (h'.handles (σ handle)).trans (h.handles handle)
  failingOpens := h'.failingOpens.trans h.failingOpens

end Alike

/-- The links, with one of a name among them. -/
def provide (name : String) (links : List Link) : List Link :=
  if ∃ l ∈ links, l.name = name then links else links ++ [{ name := name }]

/-- A link when the interface of a name is opened once more. -/
def countOpen (name filter : String) (l : Link) : Link :=
  if l.name = name then { l with opens := l.opens + 1, filter := some filter } else l

/-- The links when the interface of a name is opened once more. -/
def visit (name filter : String) (links : List Link) : List Link :=
  (provide name links).map (countOpen name filter)

/-- **What opening an interface does**: one more handle, and one more visit of its link. -/
theorem Wired.of_openHandle (h : lo.Wired)
    (hopen : lo.openHandle name patience filter = .ok (handle, lo')) :
    lo'.links = visit name filter lo.links ∧
      lo'.unplaced = lo.unplaced ++ [{ link := 0, interface := name, patience }] := by
  have hlo := Loopback.of_openHandle hopen
  refine ⟨?_, ?_⟩
  · rcases h.onLink_cases name fun l => { l with opens := l.opens + 1, filter := some filter }
      with ⟨k, l, hl, hname, heq⟩ | ⟨hnew, heq⟩
    · rw [hlo, heq, visit, provide, if_pos ⟨l, List.mem_of_getElem? hl, hname⟩]
      rfl
    · have hnone : ¬∃ l ∈ lo.links, l.name = name := fun ⟨l, hl, hname⟩ => hnew l hl hname
      have hsame : lo.links.map (countOpen name filter) = lo.links := by
        refine (List.map_congr_left fun l hl => ?_).trans (List.map_id' _)
        rw [countOpen, if_neg (hnew l hl)]
      rw [hlo, heq, visit, provide, if_neg hnone, List.map_append, hsame, List.map_singleton,
        countOpen, if_pos rfl]
  · rw [hlo, Loopback.unplaced, List.map_append, List.map_singleton, handles_onLink]
    rfl

/-- A link is visited wherever it stands. -/
theorem visit_perm (h : links.Perm links') (name filter : String) :
    (visit name filter links).Perm (visit name filter links') := by
  have hiff : (∃ l ∈ links, l.name = name) ↔ ∃ l ∈ links', l.name = name := by
    simp only [h.mem_iff]
  unfold visit provide
  refine List.Perm.map _ ?_
  by_cases hold : ∃ l ∈ links, l.name = name
  · rw [if_pos hold, if_pos (hiff.1 hold)]
    exact h
  · rw [if_neg hold, if_neg fun h => hold (hiff.2 h)]
    exact h.append_right _

/-- Two links that are provided may be provided in either order. -/
theorem provide_comm (name other : String) (links : List Link) :
    (provide other (provide name links)).Perm (provide name (provide other links)) := by
  by_cases hsame : name = other
  · rw [hsame]
  unfold provide
  have hmore : ∀ (sought : String) (l' : Link), (∃ l ∈ links, l.name = sought) →
      ∃ l ∈ links ++ [l'], l.name = sought :=
    fun sought l' ⟨l, hl, heq⟩ => ⟨l, List.mem_append_left _ hl, heq⟩
  by_cases hname : ∃ l ∈ links, l.name = name <;> by_cases hother : ∃ l ∈ links, l.name = other
  · simp only [if_pos hname, if_pos hother]
    exact .refl _
  · simp only [if_pos hname, if_neg hother, if_pos (hmore name _ hname)]
    exact .refl _
  · simp only [if_neg hname, if_pos hother, if_pos (hmore other _ hother)]
    exact .refl _
  · have hboth : ∀ {first second : String}, first ≠ second →
        (¬∃ l ∈ links, l.name = second) →
        ¬∃ l ∈ links ++ [({ name := first } : Link)], l.name = second := by
      rintro first second hne hnone ⟨l, hl, heq⟩
      rcases List.mem_append.1 hl with hold | hnew
      · exact hnone ⟨l, hold, heq⟩
      · rw [List.mem_singleton.1 hnew] at heq
        exact hne heq
    simp only [if_neg hname, if_neg hother, if_neg (hboth hsame hother),
      if_neg (hboth (Ne.symm hsame) hname), List.append_assoc]
    exact (List.Perm.swap ..).append_left links

/-- Counting does not provide, and what is provided has not been counted. -/
theorem provide_map_countOpen (hne : name ≠ other) (filter : String) (links : List Link) :
    provide other (links.map (countOpen name filter)) =
      (provide other links).map (countOpen name filter) := by
  have hname : ∀ l : Link, (countOpen name filter l).name = l.name := by
    intro l
    unfold countOpen
    split_ifs <;> rfl
  have hiff : (∃ l ∈ links.map (countOpen name filter), l.name = other) ↔
      ∃ l ∈ links, l.name = other := by
    simp only [List.mem_map, exists_exists_and_eq_and, hname]
  unfold provide
  by_cases hold : ∃ l ∈ links, l.name = other
  · rw [if_pos hold, if_pos (hiff.2 hold)]
  · rw [if_neg hold, if_neg fun h => hold (hiff.1 h), List.map_append, List.map_singleton,
      countOpen, if_neg (Ne.symm hne)]

/-- **Two interfaces may be opened in either order.** -/
theorem visit_comm (name other filter : String) (links : List Link) :
    (visit other filter (visit name filter links)).Perm
      (visit name filter (visit other filter links)) := by
  by_cases hne : name = other
  · rw [hne]
  have hcount : countOpen other filter ∘ countOpen name filter =
      countOpen name filter ∘ countOpen other filter := by
    funext l
    simp only [Function.comp, countOpen]
    by_cases hl : l.name = name
    · simp [hl, hne]
    · by_cases hl' : l.name = other <;> simp [hl, hl', Ne.symm hne]
  unfold visit
  rw [provide_map_countOpen hne, provide_map_countOpen (Ne.symm hne), List.map_map, List.map_map,
    hcount]
  exact (provide_comm name other links).map _

/-- **The same interface is opened** where links and handles correspond. -/
theorem Alike.openHandle (h : Alike σ lo lo') (hw : lo.Wired) (hw' : lo'.Wired)
    (hlength : lo'.handles.length = lo.handles.length)
    (hσ : σ lo.handles.length = lo.handles.length) {n n' : Nat}
    (hopen : lo.openHandle name patience filter = .ok (n, lo₁))
    (hopen' : lo'.openHandle name patience filter = .ok (n', lo₂)) : Alike σ lo₁ lo₂ := by
  obtain ⟨hlinks, hhandles⟩ := hw.of_openHandle hopen
  obtain ⟨hlinks', hhandles'⟩ := hw'.of_openHandle hopen'
  refine .of_unplaced (hw.openHandle hopen) (hw'.openHandle hopen') ?_ (fun handle => ?_) ?_
  · rw [hlinks, hlinks']
    exact visit_perm h.links name filter
  · rw [hhandles, hhandles']
    refine getElem?_concat_perm ?_ h.unplaced ?_ handle
    · rw [Loopback.unplaced, List.length_map, hlength, Loopback.unplaced, List.length_map]
    · rw [Loopback.unplaced, List.length_map, hσ]
  · rw [failingOpens_of_openHandle hopen', h.failingOpens, failingOpens_of_openHandle hopen]

/-- **Two interfaces that are opened in the other order** exchange their handles. -/
theorem Wired.swap (h : lo.Wired) {lo₁' lo₂' : Loopback} {n m n' m' : Nat}
    (hopen : lo.openHandle name patience filter = .ok (n, lo₁))
    (hthen : lo₁.openHandle other patience filter = .ok (m, lo₁'))
    (hopen' : lo.openHandle other patience filter = .ok (n', lo₂))
    (hthen' : lo₂.openHandle name patience filter = .ok (m', lo₂')) :
    Alike (Equiv.swap lo.handles.length (lo.handles.length + 1)) lo₁' lo₂' := by
  have hw₁ := h.openHandle hopen
  have hw₂ := h.openHandle hopen'
  obtain ⟨hlinks₁, hhandles₁⟩ := h.of_openHandle hopen
  obtain ⟨hlinks₁', hhandles₁'⟩ := hw₁.of_openHandle hthen
  obtain ⟨hlinks₂, hhandles₂⟩ := h.of_openHandle hopen'
  obtain ⟨hlinks₂', hhandles₂'⟩ := hw₂.of_openHandle hthen'
  have hlength : lo.handles.length = lo.unplaced.length := (List.length_map ..).symm
  refine .of_unplaced (hw₁.openHandle hthen) (hw₂.openHandle hthen') ?_ (fun handle => ?_) ?_
  · rw [hlinks₁', hlinks₁, hlinks₂', hlinks₂]
    exact visit_comm name other filter lo.links
  · rw [hhandles₁', hhandles₁, hhandles₂', hhandles₂, hlength]
    exact getElem?_swap handle
  · rw [failingOpens_of_openHandle hthen', failingOpens_of_openHandle hopen',
      failingOpens_of_openHandle hthen, failingOpens_of_openHandle hopen]

end Loopback

/-! ### Generations and handles -/

/-- Other numbers for captures: for their generations, and for their handles. -/
structure Renaming where
  generation : Equiv.Perm Nat
  handle : Equiv.Perm Nat

namespace Renaming

variable {old r r' : Registry} {ρ ρ' : Renaming}

def refl : Renaming := ⟨Equiv.refl Nat, Equiv.refl Nat⟩

/-- One after the other. -/
def trans (ρ ρ' : Renaming) : Renaming :=
  ⟨ρ.generation.trans ρ'.generation, ρ.handle.trans ρ'.handle⟩

/-- The next two captures of a registry exchange their numbers. -/
def swap (r : Registry) : Renaming :=
  ⟨Equiv.swap (r.generation + 1) (r.generation + 2),
    Equiv.swap r.backend.handles.length (r.backend.handles.length + 1)⟩

def capture (ρ : Renaming) (c : Capture) : Capture := ⟨ρ.generation c.generation, ρ.handle c.handle⟩

def session (ρ : Renaming) (s : Session) : Session := { s with capture := s.capture.map ρ.capture }

def task (ρ : Renaming) (t : CaptureTask) : CaptureTask :=
  { t with generation := ρ.generation t.generation, handle := ρ.handle t.handle }

/-- Only numbers that were given out from one registry to the next are changed. -/
structure Fresh (ρ : Renaming) (old r : Registry) : Prop where
  generation : ∀ n, n ≤ old.generation ∨ r.generation < n → ρ.generation n = n
  handle : ∀ n, n < old.backend.handles.length ∨ r.backend.handles.length ≤ n → ρ.handle n = n

/-- Where no number changes, no old one does. -/
theorem Fresh.refl (old r : Registry) : Renaming.refl.Fresh old r := ⟨fun _ _ => rfl, fun _ _ => rfl⟩

/-- Two renamings that leave old numbers alone do so together. -/
theorem Fresh.trans (h : ρ.Fresh old r) (h' : ρ'.Fresh old r) : (ρ.trans ρ').Fresh old r where
  generation n hn := by
    rw [Renaming.trans, Equiv.trans_apply, h.generation n hn, h'.generation n hn]
  handle n hn := by
    rw [Renaming.trans, Equiv.trans_apply, h.handle n hn, h'.handle n hn]

/-- More numbers may have been given out, before and after. -/
theorem Fresh.mono {older newer : Registry} (h : ρ.Fresh old r)
    (hold : older.generation ≤ old.generation ∧
      older.backend.handles.length ≤ old.backend.handles.length)
    (hnew : r.generation ≤ newer.generation ∧
      r.backend.handles.length ≤ newer.backend.handles.length) : ρ.Fresh older newer where
  generation n hn := h.generation n (by omega)
  handle n hn := h.handle n (by omega)

end Renaming

namespace Mailbox

variable {σ α : Type}

/-- How many more items can be left at once. -/
def spare (b : Mailbox σ α) : Nat := if b.closed then 0 else b.room - b.waiting.length

/-- What comes of several offers: as many as there is room for, the first of them. -/
def fill (b : Mailbox σ α) (items : List α) : Mailbox σ α :=
  { b with items := b.items ++ items.take b.spare }

/-- Of no item, the mailbox is not filled. -/
theorem fill_nil (b : Mailbox σ α) : b.fill [] = b := by
  rw [fill, List.take_nil, List.append_nil]

/-- **One more offer** comes behind the others, if there is room left. -/
theorem offer_fill (b : Mailbox σ α) (items : List α) (item : α) :
    (b.fill items).offer item = b.fill (items ++ [item]) := by
  have hroom : (b.fill items).hasSpareRoom = true ↔
      b.waiting.length < b.capacity - (b.items.length + min b.spare items.length) := by
    simp only [hasSpareRoom, room, fill, List.length_append, List.length_take, decide_eq_true_eq]
  unfold offer
  cases hclosed : b.closed with
  | true =>
    have hspare : b.spare = 0 := by rw [spare, if_pos hclosed]
    simp [fill, hclosed, hspare]
  | false =>
    have hspare : b.spare = b.capacity - b.items.length - b.waiting.length := by
      rw [spare, hclosed, if_neg Bool.false_ne_true, room]
    have hopen : (!(b.fill items).closed) = true := by
      rw [fill, hclosed]
      rfl
    rw [hopen, Bool.true_and]
    by_cases hlt : items.length < b.spare
    · rw [if_pos (hroom.2 (by omega)), push, fill, fill, List.take_of_length_le (by omega),
        List.take_of_length_le (by simp; omega), List.append_assoc]
    · have hfull : ¬(b.fill items).hasSpareRoom = true := by
        rw [hroom]
        omega
      rw [if_neg hfull, fill, fill, List.take_append_of_le_length (by omega)]

end Mailbox

namespace Registry

variable {old r r' r₁ r₂ : Registry} {i j : IfIndex} {s : Session} {starts : List IfIndex}
  {ρ ρ' : Renaming}

/-- **The same up to a renaming**, and up to the order of what has been added since. -/
structure Alike (old : Registry) (ρ : Renaming) (r r' : Registry) : Prop where
  settings : r'.settings = r.settings
  sessions : (r.sessions.map ρ.session).Perm r'.sessions
  alarms : r'.alarms = r.alarms
  generation : r'.generation = r.generation
  tasks : (r.tasks.map ρ.task).Perm r'.tasks
  backend : r.backend.Alike ρ.handle r'.backend
  started : ∃ is is', is.Perm is' ∧
    r.upPorts = old.upPorts ++ is ∧ r'.upPorts = old.upPorts ++ is' ∧
    r.triggers = old.triggers.fill is ∧ r'.triggers = old.triggers.fill is'

/-- What the shared parts of a registry rest on when ports are started. -/
structure Poised (r : Registry) : Prop where
  ordered : ∃ starts, r.InOrder starts
  wired : r.Wired
  numbered : r.Numbered
  tickers : r.TickersAgree

/-- The capture that comes next. -/
def nextCapture (r : Registry) : Capture := ⟨r.generation + 1, r.backend.handles.length⟩

/-- Where captures that come next correspond, so do their tasks. -/
theorem task_nextTask (h : ρ.capture r.nextCapture = r'.nextCapture) (i : IfIndex) :
    ρ.task (r.nextTask i) = r'.nextTask i := by
  obtain ⟨hg, hh⟩ := Capture.mk.inj h
  exact congrArg₂ (fun generation handle => CaptureTask.mk i generation handle false .watching)
    hg hh

/-- A port is started whose interface is opened, part by part. -/
structure Launches (r : Registry) (i : IfIndex) (s : Session) (r' : Registry) : Prop where
  settings : r'.settings = r.settings
  sessions : r'.sessions =
    r.sessions.map fun t => if t.port.ifIndex = i then t.start r.nextCapture else t
  upPorts : r'.upPorts = r.upPorts ++ [i]
  alarms : r'.alarms = r.alarms
  generation : r'.generation = r.generation + 1
  tasks : r'.tasks = r.tasks ++ [r.nextTask i]
  triggers : r'.triggers = r.triggers.offer i
  backend : r.backend.openHandle s.port.name r.settings.capture.readTimeout
    Ethernet.captureFilter = .ok (r.backend.handles.length, r'.backend)

/-- A start that opens nothing does nothing. -/
theorem start_of_not_opens (h : r.opens i = false) : (r.start i).2 = r := by
  rcases start_cases r i with ⟨-, heq⟩ | ⟨ho, -⟩
  · exact heq
  · cases ho.symm.trans h

namespace Poised

/-- A registry that is poised has no index twice. -/
theorem distinct (h : r.Poised) : r.Distinct := by
  obtain ⟨starts, horder⟩ := h.ordered
  exact horder.distinct

/-- **A start that opens an interface** puts its port at the end and disturbs no ticker. -/
theorem launches (h : r.Poised) (ho : r.opens i = true) :
    ∃ s, r.session? i = some s ∧ r.Launches i s (r.start i).2 := by
  rcases start_cases r i with ⟨hnot, -⟩ | ⟨-, s, lo, hs, hdue, hopen, heq⟩
  · cases ho.symm.trans hnot
  obtain ⟨starts, horder⟩ := h.ordered
  have hidle : r.isCapturing i = false := by
    rw [opens_eq] at ho
    simp only [Bool.and_eq_true, Bool.not_eq_true'] at ho
    exact ho.1.2
  have hup : i ∉ r.upPorts := by
    rw [horder.mem_upPorts, hidle]
    exact Bool.false_ne_true
  have hwaiting : r.triggers.withdraw i = r.triggers := by
    have hnone : r.beat? i = none := by
      have hticking := horder.ticking i s hs
      rw [isCapturing, hs, Option.any_some] at hidle
      rw [hidle, Option.isSome_eq_false_iff, Option.isNone_iff_eq_none] at hticking
      rw [beat?, hs, Option.bind_some, hticking]
      rfl
    have hheld := List.filter_eq_nil_iff.1 (h.tickers.idle i hnone)
    rw [Mailbox.withdraw, List.filter_eq_self.2 fun w hw => by simpa using hheld w hw]
  rw [heq]
  refine ⟨s, hs, rfl, rfl, if_neg hup, rfl, rfl, rfl, ?_, hopen⟩
  show (r.triggers.withdraw i).offer i = r.triggers.offer i
  rw [hwaiting]

/-- It stays poised when a port is started. -/
theorem start (h : r.Poised) (i : IfIndex) : (r.start i).2.Poised := by
  obtain ⟨log, halters⟩ := Alters.start r i
  obtain ⟨starts, horder⟩ := h.ordered
  refine ⟨⟨_, horder.alters halters⟩, h.wired.alters halters, h.numbered.alters halters, ?_⟩
  have hfollow : ∀ k, Prompts False r (r.follow i true) k := fun k => .follow r k i true
  exact h.tickers.prompts hfollow

/-- Handles and generations are numbered alike. -/
theorem handles_eq (h : r.Poised) (h' : r'.Poised) (hg : r'.generation = r.generation) :
    r'.backend.handles.length = r.backend.handles.length := by
  rw [h'.numbered.length, h.numbered.length, hg]

end Poised

namespace Alike

/-- **A port is found** where it was, under its new numbers. -/
theorem session? (h : Alike old ρ r r') (hd : r.Distinct) (i : IfIndex) :
    r'.session? i = (r.session? i).map ρ.session := by
  have hrenamed : { r with sessions := r.sessions.map ρ.session }.session? i =
      (r.session? i).map ρ.session := @find?_map_session i ρ.session (fun _ => rfl) r.sessions
  have hdistinct : { r with sessions := r.sessions.map ρ.session }.Distinct := by
    rw [Distinct, indexes, List.map_map]
    exact hd
  rw [← hrenamed]
  exact (Reordered.of_perm (r := { r with sessions := r.sessions.map ρ.session })
    h.sessions).session? hdistinct i

/-- **Whether a start opens an interface** has nothing to do with numbers. -/
theorem opens (h : Alike old ρ r r') (hd : r.Distinct) (i : IfIndex) :
    r'.opens i = r.opens i := by
  have hdue : ∀ s, r'.isDue (ρ.session s) = r.isDue s := by
    intro s
    have hcapturing : (ρ.session s).isCapturing = s.isCapturing := Option.isSome_map
    rw [isDue, isDue, h.settings, hcapturing]
    rfl
  rw [Registry.opens, h.session? hd, Option.any_map, h.backend.failingOpens, Registry.opens]
  congr 1
  funext s
  show (r'.isDue (ρ.session s) && _) = _
  rw [hdue]
  rfl

/-- **One more port is started**, and nothing tells the two apart. -/
theorem start (h : Alike old ρ r r') (hp : r.Poised) (hp' : r'.Poised) {base : Registry}
    (hf : ρ.Fresh base r) (i : IfIndex) : Alike old ρ (r.start i).2 (r'.start i).2 := by
  have hopens := h.opens hp.distinct i
  cases ho : r.opens i with
  | false =>
    rw [start_of_not_opens ho, start_of_not_opens (hopens.trans ho)]
    exact h
  | true =>
    obtain ⟨s, hs, hlaunch⟩ := hp.launches ho
    obtain ⟨s', hs', hlaunch'⟩ := hp'.launches (hopens.trans ho)
    rw [h.session? hp.distinct, hs] at hs'
    obtain rfl := Option.some.inj hs'
    have hlength := hp.handles_eq hp' h.generation
    have hnext : r'.nextCapture = r.nextCapture := by
      rw [nextCapture, hlength, h.generation, nextCapture]
    have hg : ρ.generation (r.generation + 1) = r.generation + 1 :=
      hf.generation _ (Or.inr (Nat.lt_succ_self _))
    have hh : ρ.handle r.backend.handles.length = r.backend.handles.length :=
      hf.handle _ (Or.inr (Nat.le_refl _))
    have hcapture : ρ.capture r.nextCapture = r.nextCapture := by
      rw [Renaming.capture, nextCapture, hg, hh]
    have htask : ρ.task (r.nextTask i) = r'.nextTask i :=
      task_nextTask (hcapture.trans hnext.symm) i
    obtain ⟨is, is', hperm, hup, hup', htriggers, htriggers'⟩ := h.started
    refine ⟨?_, ?_, ?_, ?_, ?_, ?_, is ++ [i], is' ++ [i], hperm.append_right _, ?_, ?_, ?_, ?_⟩
    · rw [hlaunch'.settings, h.settings, hlaunch.settings]
    · rw [hlaunch.sessions, hlaunch'.sessions, hnext, List.map_map]
      have hcomm : ρ.session ∘ (fun t => if t.port.ifIndex = i then t.start r.nextCapture else t) =
          (fun t => if t.port.ifIndex = i then t.start r.nextCapture else t) ∘ ρ.session := by
        funext t
        have hport : (ρ.session t).port = t.port := rfl
        simp only [Function.comp, hport]
        split_ifs
        · simp only [Renaming.session, Session.start, Option.map_some, hcapture]
        · rfl
      rw [hcomm, ← List.map_map]
      exact h.sessions.map _
    · rw [hlaunch'.alarms, h.alarms, hlaunch.alarms]
    · rw [hlaunch'.generation, h.generation, hlaunch.generation]
    · rw [hlaunch.tasks, hlaunch'.tasks, List.map_append, List.map_singleton, htask]
      exact h.tasks.append_right _
    · have hopen' := hlaunch'.backend
      rw [h.settings] at hopen'
      exact h.backend.openHandle hp.wired.backend hp'.wired.backend hlength hh hlaunch.backend
        hopen'
    · rw [hlaunch.upPorts, hup, List.append_assoc]
    · rw [hlaunch'.upPorts, hup', List.append_assoc]
    · rw [hlaunch.triggers, htriggers, Mailbox.offer_fill]
    · rw [hlaunch'.triggers, htriggers', Mailbox.offer_fill]

end Alike

/-- A capture there is already keeps its numbers when the next two exchange theirs. -/
theorem Numbered.capture_swap (h : r.Numbered) {c : Capture} (hc : r.IsOpened i c) :
    (Renaming.swap r).capture c = c := by
  have hle := h.agree.le i c hc
  have hhandle := h.handle i c hc
  have hlength := h.length
  have hgeneration : (Renaming.swap r).generation c.generation = c.generation :=
    Equiv.swap_apply_of_ne_of_ne (by omega) (by omega)
  have hsame : (Renaming.swap r).handle c.handle = c.handle :=
    Equiv.swap_apply_of_ne_of_ne (by omega) (by omega)
  rw [Renaming.capture, hgeneration, hsame]

/-- **Two ports that are started in the other order** exchange their numbers. -/
theorem Poised.swap (h : r.Poised) (hown : Alike old .refl r r) (hij : i ≠ j)
    (hi : r.opens i = true) (hj : r.opens j = true) :
    Alike old (.swap r) ((r.start i).2.start j).2 ((r.start j).2.start i).2 := by
  have hthen : ∀ {k l : IfIndex}, l ≠ k → r.opens l = true →
      (r.start k).2.opens l = true ∧ (r.start k).2.session? l = r.session? l := by
    intro k l hkl hl
    rw [opens_start, hl, Bool.true_and, decide_eq_true_eq, session?_start,
      if_neg fun h => hkl h.1]
    exact ⟨hkl, rfl⟩
  obtain ⟨s, hs, hfirst⟩ := h.launches hi
  obtain ⟨t, ht, hfirst'⟩ := h.launches hj
  obtain ⟨t', ht', hsecond⟩ := (h.start i).launches (hthen (Ne.symm hij) hj).1
  obtain ⟨s', hs', hsecond'⟩ := (h.start j).launches (hthen hij hi).1
  obtain rfl := Option.some.inj (hs.symm.trans ((hthen hij hi).2.symm.trans hs'))
  obtain rfl := Option.some.inj (ht.symm.trans ((hthen (Ne.symm hij) hj).2.symm.trans ht'))
  -- The second to be started has the same numbers in either order.
  have hlength : ∀ k, (r.start k).2.generation = r.generation + 1 →
      (r.start k).2.backend.handles.length = r.backend.handles.length + 1 := by
    intro k hk
    rw [(h.start k).numbered.length, hk, h.numbered.length]
  have hlengthi := hlength i hfirst.generation
  have hlengthj := hlength j hfirst'.generation
  have hnext : (r.start i).2.nextCapture = ⟨r.generation + 2, r.backend.handles.length + 1⟩ := by
    rw [nextCapture, hlengthi, hfirst.generation]
  have hnext' : (r.start j).2.nextCapture = ⟨r.generation + 2, r.backend.handles.length + 1⟩ := by
    rw [nextCapture, hlengthj, hfirst'.generation]
  have hleft : (Renaming.swap r).capture r.nextCapture =
      ⟨r.generation + 2, r.backend.handles.length + 1⟩ := by
    simp only [Renaming.capture, Renaming.swap, nextCapture, Equiv.swap_apply_left]
  have hright : (Renaming.swap r).capture ⟨r.generation + 2, r.backend.handles.length + 1⟩ =
      r.nextCapture := by
    simp only [Renaming.capture, Renaming.swap, nextCapture, Equiv.swap_apply_right]
  obtain ⟨is, -, -, hup, -, htriggers, -⟩ := hown.started
  refine ⟨?_, ?_, ?_, ?_, ?_, ?_, is ++ [i] ++ [j], is ++ [j] ++ [i], ?_, ?_, ?_, ?_, ?_⟩
  · rw [hsecond'.settings, hfirst'.settings, hsecond.settings, hfirst.settings]
  · rw [hsecond.sessions, hsecond'.sessions, hfirst.sessions, hfirst'.sessions, hnext, hnext',
      List.map_map, List.map_map, List.map_map]
    refine List.Perm.of_eq (List.map_congr_left fun u hu => ?_)
    have hstarted : ∀ c, (u.start c).port.ifIndex = u.port.ifIndex := fun _ => rfl
    have hrenamed : ∀ c, (Renaming.swap r).session (u.start c) =
        u.start ((Renaming.swap r).capture c) := fun _ => rfl
    by_cases hui : u.port.ifIndex = i
    · have huj : ¬u.port.ifIndex = j := fun heq => hij (hui.symm.trans heq)
      simp only [Function.comp, if_pos hui, hstarted, if_neg huj, hrenamed, hleft]
    · by_cases huj : u.port.ifIndex = j
      · simp only [Function.comp, if_neg hui, hstarted, if_pos huj, hrenamed, hright]
      · simp only [Function.comp, if_neg hui, if_neg huj]
        have hfound := session?_of_mem h.distinct hu
        have hkept : ∀ c, u.capture = some c → (Renaming.swap r).capture c = c := fun c hc =>
          h.numbered.capture_swap (i := u.port.ifIndex) (Or.inl (by rw [capture?, hfound]; exact hc))
        rw [Renaming.session, Option.map_congr hkept, Option.map_id']
  · rw [hsecond'.alarms, hfirst'.alarms, hsecond.alarms, hfirst.alarms]
  · rw [hsecond'.generation, hfirst'.generation, hsecond.generation, hfirst.generation]
  · have hold : r.tasks.map (Renaming.swap r).task = r.tasks := by
      refine (List.map_congr_left fun u hu => ?_).trans (List.map_id' _)
      obtain ⟨hg, hh⟩ := Capture.mk.inj
        (h.numbered.capture_swap (Or.inr ⟨u, hu, rfl, rfl⟩))
      show { u with generation := (Renaming.swap r).generation u.generation
                    handle := (Renaming.swap r).handle u.handle } = u
      rw [hg, hh]
    have hi : (Renaming.swap r).task (r.nextTask i) = (r.start j).2.nextTask i :=
      task_nextTask (hleft.trans hnext'.symm) i
    have hj : (Renaming.swap r).task ((r.start i).2.nextTask j) = r.nextTask j :=
      task_nextTask (by rw [hnext, hright]) j
    rw [hsecond.tasks, hfirst.tasks, hsecond'.tasks, hfirst'.tasks]
    simp only [List.map_append, List.map_singleton, hold, hi, hj, List.append_assoc]
    exact (List.Perm.swap ..).append_left r.tasks
  · have hopen := hsecond.backend
    have hopen' := hsecond'.backend
    rw [hfirst.settings] at hopen
    rw [hfirst'.settings] at hopen'
    exact h.wired.backend.swap hfirst.backend hopen hfirst'.backend hopen'
  · rw [List.append_assoc, List.append_assoc]
    exact (List.Perm.swap ..).append_left is
  · rw [hsecond.upPorts, hfirst.upPorts, hup]
    simp only [List.append_assoc]
  · rw [hsecond'.upPorts, hfirst'.upPorts, hup]
    simp only [List.append_assoc]
  · rw [hsecond.triggers, hfirst.triggers, htriggers, Mailbox.offer_fill, Mailbox.offer_fill]
  · rw [hsecond'.triggers, hfirst'.triggers, htriggers, Mailbox.offer_fill, Mailbox.offer_fill]

namespace Alike

/-- What is alike to something that is alike is alike. -/
theorem trans (h : Alike old ρ r r₁) (h' : Alike old ρ' r₁ r₂) : Alike old (ρ.trans ρ') r r₂ := by
  obtain ⟨is, is', hperm, hup, hup', htriggers, htriggers'⟩ := h.started
  obtain ⟨js, js', hperm', hup₁, hup₂, htriggers₁, htriggers₂⟩ := h'.started
  obtain rfl : is' = js := List.append_cancel_left (hup'.symm.trans hup₁)
  refine ⟨h'.settings.trans h.settings, ?_, h'.alarms.trans h.alarms,
    h'.generation.trans h.generation, ?_, h.backend.trans h'.backend, is, js',
    hperm.trans hperm', hup, hup₂, htriggers, htriggers₂⟩
  · have hboth : (ρ.trans ρ').session = ρ'.session ∘ ρ.session := by
      funext s
      simp only [Function.comp, Renaming.session, Option.map_map]
      rfl
    rw [hboth, ← List.map_map]
    exact (h.sessions.map _).trans h'.sessions
  · have hboth : (ρ.trans ρ').task = ρ'.task ∘ ρ.task := rfl
    rw [hboth, ← List.map_map]
    exact (h.tasks.map _).trans h'.tasks

/-- Numbers are not told apart without renaming any. -/
theorem of_reordered (h : Reordered r r') {is : List IfIndex}
    (hup : r.upPorts = old.upPorts ++ is) (htriggers : r.triggers = old.triggers.fill is) :
    Alike old .refl r r' := by
  have hsession : Renaming.refl.session = id := by
    funext s
    show { s with capture := s.capture.map id } = s
    rw [Option.map_id]
    rfl
  have htask : Renaming.refl.task = id := rfl
  rw [h.rest]
  refine ⟨rfl, ?_, rfl, rfl, ?_, .refl _, is, is, .refl _, hup, hup, htriggers, htriggers⟩
  · rw [hsession, List.map_id]
    exact h.sessions
  · rw [htask, List.map_id]

end Alike

/-- Numbers are given out and not taken back. -/
theorem Poised.start_le (h : r.Poised) (i : IfIndex) :
    r.generation ≤ (r.start i).2.generation ∧
      r.backend.handles.length ≤ (r.start i).2.backend.handles.length := by
  obtain ⟨log, halters⟩ := Alters.start r i
  have hg := halters.generations.2
  rw [(h.start i).numbered.length, h.numbered.length, hg]
  exact ⟨Nat.le_add_right .., Nat.le_add_right ..⟩

/-- It stays poised when several are. -/
theorem Poised.followAll (is : List IfIndex) :
    ∀ {r : Registry}, r.Poised → (r.followAll is true).Poised := by
  induction is with
  | nil => exact fun h => h
  | cons i is ih => exact fun h => ih (h.start i)

/-- **More ports are started**, the same in both. -/
theorem Alike.followAll {base : Registry} (is : List IfIndex) :
    ∀ {r r' : Registry}, Alike old ρ r r' → r.Poised → r'.Poised → ρ.Fresh base r →
      Alike old ρ (r.followAll is true) (r'.followAll is true) ∧
        ρ.Fresh base (r.followAll is true) := by
  induction is with
  | nil => exact fun h _ _ hf => ⟨h, hf⟩
  | cons i is ih =>
    intro r r' h hp hp' hf
    exact ih (h.start hp hp' hf i) (hp.start i) (hp'.start i)
      (hf.mono ⟨Nat.le_refl _, Nat.le_refl _⟩ (hp.start_le i))

/-- **Two starts may change places.** -/
theorem Poised.start_comm (h : r.Poised) (hown : Alike old .refl r r) (i j : IfIndex) :
    ∃ ρ : Renaming, ρ.Fresh r ((r.start i).2.start j).2 ∧
      Alike old ρ ((r.start i).2.start j).2 ((r.start j).2.start i).2 := by
  by_cases hboth : i ≠ j ∧ r.opens i = true ∧ r.opens j = true
  · obtain ⟨hij, hi, hj⟩ := hboth
    refine ⟨.swap r, ⟨fun n hn => ?_, fun n hn => ?_⟩, h.swap hown hij hi hj⟩
    all_goals
      have hj' : (r.start i).2.opens j = true := by
        rw [opens_start, hj, Bool.true_and, decide_eq_true_eq]
        exact Ne.symm hij
      obtain ⟨s, -, hfirst⟩ := h.launches hi
      obtain ⟨t, -, hsecond⟩ := (h.start i).launches hj'
      have hlast := ((h.start i).start j).numbered.length
      have hlength := h.numbered.length
      rw [hsecond.generation, hfirst.generation] at hlast
    · rw [hsecond.generation, hfirst.generation] at hn
      exact Equiv.swap_apply_of_ne_of_ne (by omega) (by omega)
    · exact Equiv.swap_apply_of_ne_of_ne (by omega) (by omega)
  · -- One of the two changes nothing, whether it comes first or second.
    have hsame : ((r.start i).2.start j).2 = ((r.start j).2.start i).2 := by
      by_cases hij : i = j
      · rw [hij]
      have hnot : ∀ {k l : IfIndex}, r.opens k = false → (r.start l).2.opens k = false := by
        intro k l hk
        rw [opens_start, hk, Bool.false_and]
      cases hi : r.opens i with
      | false => rw [start_of_not_opens hi, start_of_not_opens (hnot hi)]
      | true =>
        have hj : r.opens j = false := Bool.eq_false_iff.2 fun hj => hboth ⟨hij, hi, hj⟩
        rw [start_of_not_opens hj, start_of_not_opens (hnot hj)]
    have hfirst := hown.start h h (.refl r r) i
    refine ⟨.refl, .refl _ _, ?_⟩
    rw [← hsame]
    exact hfirst.start (h.start i) (h.start i) (.refl r _) j

/-- **Ports may be started in any order.** -/
theorem followAll_on_perm {is is' : List IfIndex} (hperm : is.Perm is') :
    ∀ {r : Registry}, r.Poised → Alike old .refl r r →
      ∃ ρ : Renaming, ρ.Fresh r (r.followAll is true) ∧
        Alike old ρ (r.followAll is true) (r.followAll is' true) := by
  induction hperm with
  | nil => exact fun _ hown => ⟨.refl, .refl _ _, hown⟩
  | cons i _ ih =>
    intro r h hown
    obtain ⟨ρ, hf, halike⟩ := ih (h.start i) (hown.start h h (.refl r r) i)
    exact ⟨ρ, hf.mono (h.start_le i) ⟨Nat.le_refl _, Nat.le_refl _⟩, halike⟩
  | swap i j is =>
    intro r h hown
    obtain ⟨ρ, hf, halike⟩ := h.start_comm hown j i
    obtain ⟨hall, hf'⟩ := halike.followAll is ((h.start j).start i) ((h.start i).start j) hf
    exact ⟨ρ, hf', hall⟩
  | trans _ _ ih ih' =>
    intro r h hown
    obtain ⟨ρ, hf, halike⟩ := ih h hown
    obtain ⟨ρ', hf', halike'⟩ := ih' h hown
    have hle := Nat.le_of_eq halike.generation
    have hle' := Nat.le_of_eq ((h.followAll _).handles_eq (h.followAll _) halike.generation)
    exact ⟨ρ.trans ρ', hf.trans (hf'.mono ⟨Nat.le_refl _, Nat.le_refl _⟩ ⟨hle, hle'⟩), halike.trans halike'⟩

end Registry
end Lldp
