/-
# Reads that take turns

Reads of a link that have queued take turns: as long as frames wait, each turn ends at once
with the next of them; then each waits for its own patience, which begins to run when the one
before it has ended.  How they all end can be told beforehand (`Link.forecast`), and nothing
that happens while they run changes what is told (`ReadRun.Destined`): a turn that ends takes
its line out of the forecast of its link and puts it among the reads that have ended, a
turn that goes on fixes a time that was told already, and the clock moves on to the next of
these times only when all turns wait.

So reads that are started together end as was told when they queued
(`Destined.runOut`, `Destined.ended`).
-/

import Lldp.Loopback.Reads
import Lldp.Proofs.Machine
import Lldp.Proofs.ReadLog
import Mathlib.Algebra.Ring.Nat

namespace Lldp

namespace Link

variable {l : Link} {now : Nat} {done : Option (Nat × ReadOutcome) × Link}

/-- **What the read whose turn it is does.** -/
inductive Turn (l : Link) (now : Nat) : Option (Nat × ReadOutcome) × Link → Prop
  | idle (hreaders : l.readers = []) : Turn l now (none, l)
  | takes (r : Reader) (rest : List Reader) (bytes : Octets) (more : List Octets)
      (hreaders : l.readers = r :: rest) (hunread : l.unread = bytes :: more) :
    Turn l now (some (r.ticket, .frame bytes), { l with unread := more, readers := rest })
  | cutOff (r : Reader) (rest : List Reader) (hreaders : l.readers = r :: rest)
      (hunread : l.unread = []) (hgone : l.gone = true) :
    Turn l now (some (r.ticket, .gone), { l with readers := rest })
  | gives (r : Reader) (rest : List Reader) (hreaders : l.readers = r :: rest)
      (hunread : l.unread = []) (hgone : l.gone = false)
      (hdue : r.deadline.getD (now + r.patience) ≤ now) :
    Turn l now (some (r.ticket, .nothing), { l with readers := rest })
  | waits (r : Reader) (rest : List Reader) (hreaders : l.readers = r :: rest)
      (hunread : l.unread = []) (hgone : l.gone = false)
      (hdue : now < r.deadline.getD (now + r.patience)) :
    Turn l now (none, { l with
      readers := { r with deadline := some (r.deadline.getD (now + r.patience)) } :: rest })

theorem turn_serve (l : Link) (now : Nat) : Turn l now (l.serve now) := by
  unfold serve
  cases hreaders : l.readers with
  | nil => exact .idle hreaders
  | cons r rest =>
    cases hunread : l.unread with
    | cons bytes more => exact .takes r rest bytes more hreaders hunread
    | nil =>
      dsimp only
      split_ifs with hgone hdue
      · rw [← hunread]
        exact .cutOff r rest hreaders hunread hgone
      · rw [← hunread]
        exact .gives r rest hreaders hunread (Bool.eq_false_iff.2 hgone) hdue
      · rw [← hunread]
        exact .waits r rest hreaders hunread (Bool.eq_false_iff.2 hgone) (Nat.lt_of_not_le hdue)

/-- How the turns of reads end, and when, if no frame comes. -/
def forecast : Nat → List Octets → List Reader → List (Nat × ReadOutcome × Nat)
  | _, _, [] => []
  | now, bytes :: more, r :: rest => (r.ticket, .frame bytes, now) :: forecast now more rest
  | now, [], r :: rest =>
    let due := r.deadline.getD (now + r.patience)
    (r.ticket, .nothing, due) :: forecast due [] rest

/-- How the turns of a link end. -/
def outlook (l : Link) (now : Nat) : List (Nat × ReadOutcome × Nat) :=
  forecast now l.unread l.readers

/-- A link when all its reads have ended. -/
def drained (l : Link) : Link :=
  { l with unread := l.unread.drop l.readers.length, readers := [] }

/-- How many steps its reads make at the most. -/
def work (l : Link) : Nat :=
  match l.readers with
  | [] => 0
  | r :: rest => 2 * rest.length + if r.deadline.isSome then 1 else 2

/-- Only the patience of the read whose turn it is runs, and has not run out. -/
structure InTurn (l : Link) (now : Nat) : Prop where
  present : l.gone = false
  fresh : ∀ r ∈ l.readers.tail, r.deadline = none
  ahead : ∀ r ∈ l.readers.head?, ∀ due ∈ r.deadline, now ≤ due

/-- **A step of a turn** makes the forecast come true. -/
theorem InTurn.serve (h : l.InTurn now) :
    (l.serve now).2.InTurn now ∧
      l.outlook now = ((l.serve now).1.toList.map fun e => (e.1, e.2, now)) ++
        (l.serve now).2.outlook now ∧
      (l.serve now).2.drained = l.drained := by
  have hturn := turn_serve l now
  generalize l.serve now = done at hturn
  have hrest : ∀ {r rest}, l.readers = r :: rest → (∀ r ∈ rest.tail, r.deadline = none) ∧
      ∀ r ∈ rest.head?, ∀ due ∈ r.deadline, now ≤ due := by
    intro r rest hreaders
    have hfresh := h.fresh
    rw [hreaders] at hfresh
    refine ⟨fun r' hr' => hfresh r' (List.mem_of_mem_tail hr'), fun r' hr' due hdue => ?_⟩
    rw [hfresh r' (List.mem_of_mem_head? hr')] at hdue
    cases hdue
  cases hturn with
  | idle => exact ⟨h, rfl, rfl⟩
  | takes r rest bytes more hreaders hunread =>
    obtain ⟨hfresh, hahead⟩ := hrest hreaders
    refine ⟨⟨h.present, hfresh, hahead⟩, ?_, ?_⟩
    · simp [outlook, forecast, hreaders, hunread]
    · simp [drained, hreaders, hunread]
  | cutOff r rest _ _ hgone => cases h.present.symm.trans hgone
  | gives r rest hreaders hunread hgone hdue =>
    obtain ⟨hfresh, hahead⟩ := hrest hreaders
    have hnow : r.deadline.getD (now + r.patience) = now := by
      refine Nat.le_antisymm hdue ?_
      cases hdeadline : r.deadline with
      | none => exact Nat.le_add_right _ _
      | some due => exact h.ahead r (by rw [hreaders]; rfl) due (by rw [hdeadline]; rfl)
    refine ⟨⟨h.present, hfresh, hahead⟩, ?_, ?_⟩
    · simp [outlook, forecast, hreaders, hunread, hnow]
    · simp [drained, hreaders, hunread]
  | waits r rest hreaders hunread hgone hdue =>
    refine ⟨⟨h.present, ?_, ?_⟩, ?_, ?_⟩
    · have hfresh := h.fresh
      rwa [hreaders] at hfresh
    · rintro r' hr' due hdue'
      obtain rfl := Option.some.inj hr'
      obtain rfl := Option.some.inj hdue'
      exact Nat.le_of_lt hdue
    · simp [outlook, forecast, hreaders, hunread]
    · simp [drained, hreaders, hunread]

/-- **A step of a turn that can make one** leaves less to do, and ends the turn if its
patience has run out. -/
theorem work_serve (hcan : l.canServe now = true) :
    (l.serve now).2.work < l.work ∧
      ((l.serve now).2.readers.length < l.readers.length ∨
        (l.serve now).2.readers.length = l.readers.length ∧
          ∀ r ∈ l.readers.head?, r.deadline = none) := by
  have hturn := turn_serve l now
  generalize l.serve now = done at hturn
  have hfewer : ∀ {r rest} {l' : Link}, l.readers = r :: rest → l'.readers = rest →
      l'.work < l.work := by
    intro r rest l' hreaders hreaders'
    unfold work
    rw [hreaders, hreaders']
    cases rest with
    | nil =>
      dsimp only
      split_ifs <;> simp
    | cons r' rest =>
      dsimp only
      rw [List.length_cons]
      split_ifs <;> omega
  cases hturn with
  | idle hreaders => simp [canServe, hreaders] at hcan
  | takes r rest _ _ hreaders | cutOff r rest hreaders | gives r rest hreaders =>
    exact ⟨hfewer hreaders rfl, Or.inl (by rw [hreaders]; exact Nat.lt_succ_self _)⟩
  | waits r rest hreaders hunread hgone hdue =>
    cases hdeadline : r.deadline with
    | none =>
      refine ⟨?_, Or.inr ⟨by rw [hreaders]; rfl, ?_⟩⟩
      · simp [work, hreaders, hdeadline]
      · rw [hreaders]
        rintro r' hr'
        obtain rfl := Option.some.inj hr'
        exact hdeadline
    | some due =>
      rw [hdeadline, Option.getD_some] at hdue
      simp [canServe, hreaders, hunread, hgone, hdeadline] at hcan
      omega

theorem work_le (l : Link) : l.work ≤ 2 * l.readers.length := by
  unfold work
  split
  · exact Nat.zero_le _
  · next r rest hreaders =>
    rw [hreaders, List.length_cons]
    split_ifs <;> omega

theorem sum_work_le (links : List Link) :
    (links.map work).sum ≤ 2 * (links.flatMap (·.readers)).length := by
  induction links with
  | nil => exact Nat.zero_le _
  | cons l links ih =>
    have hfirst := l.work_le
    rw [List.map_cons, List.sum_cons, List.flatMap_cons, List.length_append]
    omega

/-- A read whose patience has run out can go on. -/
theorem canServe_of_due {r : Reader} {due : Nat} (hr : r ∈ l.readers.head?)
    (hdue : due ∈ r.deadline) (hle : due ≤ now) : l.canServe now = true := by
  unfold canServe
  cases hreaders : l.readers with
  | nil =>
    rw [hreaders] at hr
    cases hr
  | cons r' rest =>
    rw [hreaders] at hr
    obtain rfl := Option.some.inj hr
    simp [Option.mem_def.1 hdue, hle]

/-- A link on which nothing can be done has no reads, or the first waits. -/
theorem waits_of_canServe (h : l.canServe now = false) :
    l.readers = [] ∨ ∃ r rest due, l.readers = r :: rest ∧ l.unread = [] ∧
      r.deadline = some due ∧ now < due := by
  unfold canServe at h
  cases hreaders : l.readers with
  | nil => exact Or.inl rfl
  | cons r rest =>
    rw [hreaders] at h
    simp only [Bool.or_eq_false_iff, Bool.not_eq_false', List.isEmpty_iff] at h
    obtain ⟨⟨hunread, -⟩, hwaits⟩ := h
    cases hdeadline : r.deadline with
    | none =>
      rw [hdeadline] at hwaits
      cases hwaits
    | some due =>
      rw [hdeadline, Option.all_some, decide_eq_false_iff_not, Nat.not_le] at hwaits
      exact Or.inr ⟨r, rest, due, rfl, hunread, hdeadline, hwaits⟩

/-- **While all turns wait** the clock may go on until the first patience runs out. -/
theorem InTurn.wait {later : Nat} (h : l.InTurn now) (hwaits : l.canServe now = false)
    (hle : ∀ r ∈ l.readers.head?, ∀ due ∈ r.deadline, later ≤ due) :
    l.InTurn later ∧ l.outlook later = l.outlook now := by
  refine ⟨⟨h.present, h.fresh, hle⟩, ?_⟩
  rcases waits_of_canServe hwaits with hnone | ⟨r, rest, due, hreaders, hunread, hdeadline, -⟩
  · simp [outlook, forecast, hnone]
  · simp [outlook, forecast, hreaders, hunread, hdeadline]

end Link

/-! ### All links -/

namespace ReadRun

variable {run : ReadRun} {book : List (Nat × ReadOutcome × Nat)} {last : Loopback} {link : Nat}

/-- How many reads are under way. -/
def pending (run : ReadRun) : Nat := (run.loopback.links.flatMap (·.readers)).length

/-- How many steps they make at the most. -/
def work (run : ReadRun) : Nat := (run.loopback.links.map Link.work).sum

/-- What is bound to come of a run: how all its reads end, and what is left. -/
structure Destined (run : ReadRun) (book : List (Nat × ReadOutcome × Nat)) (last : Loopback) :
    Prop where
  inTurn : ∀ l ∈ run.loopback.links, l.InTurn run.now
  book : (run.ended ++ run.loopback.links.flatMap (·.outlook run.now)).Perm book
  last : { run.loopback with links := run.loopback.links.map Link.drained } = last

/-- The links before and after one of them. -/
theorem links_serve {l : Link} (hl : run.loopback.links[link]? = some l) :
    ∃ before after, run.loopback.links = before ++ l :: after ∧ before.length = link ∧
      run.serve link = { run with
        loopback := { run.loopback with links := before ++ (l.serve run.now).2 :: after }
        ended := run.ended ++ (l.serve run.now).1.toList.map fun e => (e.1, e.2, run.now) } := by
  obtain ⟨hlt, rfl⟩ := List.getElem?_eq_some_iff.1 hl
  refine ⟨run.loopback.links.take link, run.loopback.links.drop (link + 1), ?_, ?_, ?_⟩
  · rw [List.getElem_cons_drop, List.take_append_drop]
  · exact List.length_take_of_le (Nat.le_of_lt hlt)
  · simp only [serve, Loopback.serve, hl]
    rw [List.set_eq_take_append_cons_drop, if_pos hlt]

/-- **A step of a turn** keeps what is bound to come. -/
theorem Destined.serve (h : run.Destined book last) (link : Nat) :
    (run.serve link).Destined book last := by
  cases hl : run.loopback.links[link]? with
  | none =>
    have hserve : run.serve link = run := by
      simp [ReadRun.serve, Loopback.serve, hl]
    rwa [hserve]
  | some l =>
    obtain ⟨before, after, hlinks, -, hserve⟩ := links_serve hl
    obtain ⟨hinTurn, houtlook, hdrained⟩ := (h.inTurn l (List.mem_of_getElem? hl)).serve
    have hbook := h.book
    have hlast := h.last
    rw [hlinks] at hbook hlast
    rw [hserve]
    refine ⟨fun m hm => ?_, ?_, ?_⟩
    · rcases List.mem_append.1 hm with hm | hm
      · exact h.inTurn m (hlinks ▸ List.mem_append_left _ hm)
      · rcases List.mem_cons.1 hm with rfl | hm
        · exact hinTurn
        · exact h.inTurn m (hlinks ▸ List.mem_append_right _ (List.mem_cons_of_mem _ hm))
    · -- The line that ends is put before the outlook of the links.
      refine List.Perm.trans ?_ hbook
      simp only [List.flatMap_append, List.flatMap_cons, houtlook, List.append_assoc]
      exact (List.perm_append_left_iff _).2 (List.perm_append_comm_assoc ..)
    · rw [← hlast]
      simp [hdrained]

/-- A link is able if its first read can go on. -/
theorem mem_able_iff : link ∈ machine.able run ↔
    ∃ l, run.loopback.links[link]? = some l ∧ l.canServe run.now = true := by
  have hable : machine.able run = (List.range run.loopback.links.length).filter
    (run.loopback.canServe · run.now) := rfl
  rw [hable, List.mem_filter, List.mem_range, Loopback.canServe, Option.any_eq_true]
  constructor
  · exact fun h => h.2
  · exact fun h => ⟨(List.getElem?_eq_some_iff.1 h.choose_spec.1).1, h⟩

theorem canServe_of_able (h : machine.able run = []) {l : Link} (hl : l ∈ run.loopback.links) :
    l.canServe run.now = false := by
  obtain ⟨k, hk⟩ := List.mem_iff_getElem?.1 hl
  refine Bool.eq_false_iff.2 fun hcan => ?_
  have hmem : k ∈ machine.able run := mem_able_iff.2 ⟨l, hk, hcan⟩
  rw [h] at hmem
  cases hmem

/-- **A step of a link that is able** leaves less to do, and ends a read unless the first of
the link begins to wait. -/
theorem work_serve (h : link ∈ machine.able run) :
    (run.serve link).work < run.work ∧
      ((run.serve link).pending < run.pending ∨
        (run.serve link).pending = run.pending ∧
          ∀ (k : Nat) l, run.loopback.links[k]? = some l →
            (∃ r ∈ l.readers.head?, r.deadline ≠ none) →
            (run.serve link).loopback.links[k]? = some l) := by
  obtain ⟨l, hl, hcan⟩ := mem_able_iff.1 h
  obtain ⟨hwork, hpending⟩ := Link.work_serve hcan
  obtain ⟨before, after, hlinks, hlength, hserve⟩ := links_serve hl
  constructor
  · simp only [work, hserve, hlinks, List.map_append, List.map_cons, List.sum_append,
      List.sum_cons]
    omega
  · simp only [pending, hserve, hlinks, List.flatMap_append, List.flatMap_cons,
      List.length_append]
    refine hpending.imp (fun hfewer => by omega) fun ⟨hsame, hnone⟩ => ⟨by omega, ?_⟩
    rintro k m hm ⟨r, hr, hdeadline⟩
    have hne : k ≠ link := by
      rintro rfl
      rw [← hlinks, hl] at hm
      obtain rfl := Option.some.inj hm
      exact hdeadline (hnone r hr)
    rw [← hm, List.getElem?_append, List.getElem?_append]
    split_ifs with hbefore
    · rfl
    · obtain ⟨d, hd⟩ : ∃ d, k - before.length = d + 1 := ⟨k - before.length - 1, by omega⟩
      rw [hd]
      rfl

theorem work_le_workload (run : ReadRun) : run.work ≤ 2 * machine.workload run := by
  have hload : machine.workload run = 2 * (run.loopback.links.flatMap (·.readers)).length + 1 :=
    rfl
  have hwork := Link.sum_work_le run.loopback.links
  rw [hload, work]
  omega

/-- Since a moment a read has ended, or no link has changed on which a read waited for its
patience to run out. -/
def EndsOrStands (start run : ReadRun) : Prop :=
  run.pending < start.pending ∨ run.pending = start.pending ∧
    ∀ (k : Nat) l, start.loopback.links[k]? = some l →
      (∃ r ∈ l.readers.head?, r.deadline ≠ none) → run.loopback.links[k]? = some l

theorem EndsOrStands.pending_le {start : ReadRun} (h : start.EndsOrStands run) :
    run.pending ≤ start.pending := by
  rcases h with hfewer | ⟨hsame, -⟩
  · exact Nat.le_of_lt hfewer
  · exact Nat.le_of_eq hsame

theorem EndsOrStands.serve {start : ReadRun} (h : start.EndsOrStands run)
    (hable : link ∈ machine.able run) : start.EndsOrStands (run.serve link) := by
  rcases (work_serve hable).2 with hended | ⟨hnone, hkeep⟩
  · exact Or.inl (Nat.lt_of_lt_of_le hended h.pending_le)
  · rcases h with hfewer | ⟨hsame, hstand⟩
    · exact Or.inl (by omega)
    · exact Or.inr ⟨hnone.trans hsame, fun k l hl hr => hkeep k l (hstand k l hl hr) hr⟩

/-- **Running to a standstill** keeps what is bound to come, and ends a read if the patience
of one has run out. -/
theorem Destined.settle (h : run.Destined book last) :
    (machine.settle run).Destined book last ∧ (machine.settle run).now = run.now ∧
      machine.able (machine.settle run) = [] ∧
      (machine.settle run).pending ≤ run.pending ∧
      ((∃ l ∈ run.loopback.links, ∃ r ∈ l.readers.head?, ∃ due ∈ r.deadline, due ≤ run.now) →
        (machine.settle run).pending < run.pending) := by
  have hstep : ∀ link s, s.Destined book last ∧ s.now = run.now ∧ run.EndsOrStands s →
      link ∈ machine.able s →
      ((machine.step link s).Destined book last ∧ (machine.step link s).now = run.now ∧
        run.EndsOrStands (machine.step link s)) ∧ (machine.step link s).work < s.work := by
    rintro link s ⟨hs, hnow, hreads⟩ hable
    exact ⟨⟨hs.serve link, hnow, hreads.serve hable⟩, (work_serve hable).1⟩
  obtain ⟨⟨hdestined, hnow, hreads⟩, hable⟩ :=
    machine.settle_standstill (Nat.zero_le _) (fun _ _ => Nat.le_refl 0) hstep
      ⟨h, rfl, Or.inr ⟨rfl, fun k l hl _ => hl⟩⟩ (by simpa using work_le_workload run)
  refine ⟨hdestined, hnow, hable, hreads.pending_le, ?_⟩
  rintro ⟨l, hl, r, hr, due, hdue, hle⟩
  refine hreads.resolve_right fun ⟨_, hstand⟩ => ?_
  -- The read whose patience has run out could still go on.
  obtain ⟨k, hk⟩ := List.mem_iff_getElem?.1 hl
  have hthere := hstand k l hk ⟨r, hr, by rw [Option.mem_def.1 hdue]; simp⟩
  have hnot := canServe_of_able hable (List.mem_of_getElem? hthere)
  rw [hnow, Link.canServe_of_due hr hdue hle] at hnot
  cases hnot

/-- The first of the times at which patience runs out while all turns wait. -/
theorem earliest?_of_pending (hable : machine.able run = []) {l : Link} {r : Reader} {due : Nat}
    (hl : l ∈ run.loopback.links) (hr : r ∈ l.readers.head?) (hdue : due ∈ r.deadline) :
    ∃ first, Machine.earliest? run.now (machine.timers run) = some first ∧ first ≤ due := by
  have hlater : run.now < due := by
    refine Nat.lt_of_not_le fun hle => ?_
    have hnot := canServe_of_able hable hl
    rw [Link.canServe_of_due hr hdue hle] at hnot
    cases hnot
  have hmem : due ∈ machine.timers run := by
    refine List.mem_filterMap.2 ⟨l, hl, ?_⟩
    rw [Option.mem_def.1 hr, Option.bind_some, Option.mem_def.1 hdue]
  cases hfirst : Machine.earliest? run.now (machine.timers run) with
  | none => exact absurd (Machine.earliest?_eq_none_iff.1 hfirst due hmem) (Nat.not_le.2 hlater)
  | some first => exact ⟨first, rfl, (Machine.earliest?_eq_some_iff.1 hfirst).2 due hmem hlater⟩

/-- **While all turns wait** the clock may go on to the first of these times. -/
theorem Destined.wait {first : Nat} (h : run.Destined book last) (hable : machine.able run = [])
    (hfirst : Machine.earliest? run.now (machine.timers run) = some first) :
    ({ run with now := first } : ReadRun).Destined book last := by
  have hlinks : ∀ l ∈ run.loopback.links,
      l.InTurn first ∧ l.outlook first = l.outlook run.now := by
    intro l hl
    refine (h.inTurn l hl).wait (canServe_of_able hable hl) fun r hr due hdue => ?_
    obtain ⟨first', hfirst', hle⟩ := earliest?_of_pending hable hl hr hdue
    rw [hfirst] at hfirst'
    obtain rfl := Option.some.inj hfirst'
    exact hle
  refine ⟨fun l hl => (hlinks l hl).1, ?_, h.last⟩
  have hsame : run.loopback.links.flatMap (·.outlook first) =
      run.loopback.links.flatMap (·.outlook run.now) :=
    List.flatMap_congr fun l hl => (hlinks l hl).2
  dsimp only
  rw [hsame]
  exact h.book

/-- **Run on until every read has ended.** -/
theorem Destined.runOut {count : Nat} (h : run.Destined book last)
    (hable : machine.able run = []) (hcount : run.pending ≤ count) :
    (machine.runOut count run.now run).2.Destined book last ∧
      (machine.runOut count run.now run).2.pending = 0 := by
  induction count generalizing run with
  | zero => exact ⟨h, Nat.le_zero.1 hcount⟩
  | succ count ih =>
    rw [Machine.runOut]
    cases hfirst : Machine.earliest? run.now (machine.timers run) with
    | none =>
      refine ⟨h, List.length_eq_zero_iff.2 (List.flatMap_eq_nil_iff.2 fun l hl => ?_)⟩
      rcases Link.waits_of_canServe (canServe_of_able hable hl) with
        hnone | ⟨r, rest, due, hreaders, -, hdeadline, -⟩
      · exact hnone
      · have hr : r ∈ l.readers.head? := by
          rw [hreaders]
          rfl
        obtain ⟨first, hfirst', -⟩ := earliest?_of_pending hable hl hr hdeadline
        cases hfirst.symm.trans hfirst'
    | some first =>
      obtain ⟨⟨hmem, -⟩, -⟩ := Machine.earliest?_eq_some_iff.1 hfirst
      obtain ⟨l, hl, hhead⟩ := List.mem_filterMap.1 hmem
      obtain ⟨r, hr, hdue⟩ := Option.bind_eq_some_iff.1 hhead
      obtain ⟨hdestined, hnow, hable', -, hends⟩ := (h.wait hable hfirst).settle
      have hfewer := hends ⟨l, hl, r, hr, first, hdue, Nat.le_refl _⟩
      have hpending : ({ run with now := first } : ReadRun).pending = run.pending := rfl
      have hlast := ih hdestined hable' (by omega)
      rwa [hnow] at hlast

/-- **Where no read is under way any more**, what was bound to come has come. -/
theorem Destined.ended (h : run.Destined book last) (hnone : run.pending = 0) :
    run.ended.Perm book ∧ run.loopback = last := by
  have hreaders : ∀ l ∈ run.loopback.links, l.readers = [] :=
    List.flatMap_eq_nil_iff.1 (List.length_eq_zero_iff.1 hnone)
  have hbook := h.book
  have hlast := h.last
  have houtlook : run.loopback.links.flatMap (·.outlook run.now) = [] :=
    List.flatMap_eq_nil_iff.2 fun l hl => by rw [Link.outlook, hreaders l hl, Link.forecast]
  have hdrained : run.loopback.links.map Link.drained = run.loopback.links := by
    refine (List.map_congr_left fun l hl => ?_).trans (List.map_id _)
    rw [Link.drained, hreaders l hl, List.length_nil, List.drop_zero, ← hreaders l hl]
    rfl
  rw [houtlook, List.append_nil] at hbook
  rw [hdrained] at hlast
  exact ⟨hbook, hlast⟩

end ReadRun
end Lldp
