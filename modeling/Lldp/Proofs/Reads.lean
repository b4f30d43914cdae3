/-
# Reads that are started together

Reads that are started together queue on the links of their handles, in the order in which
they were started (`Loopback.startReads_snd`); those on handles that are not open are refused
(`lookup_startReads`).  What is bound to come of the others is told by the forecast of their
link, in which the line of a read depends on those before it only
(`Link.forecast_append`, `Wired.mem_forecast`).
-/

import Lldp.Proofs.Turns

namespace Lldp

namespace Link

variable {now : Nat} {unread : List Octets} {early late : List Reader}

/-- The reads of a forecast are those that queue. -/
theorem forecast_map_fst (now : Nat) (unread : List Octets) (readers : List Reader) :
    (forecast now unread readers).map Prod.fst = readers.map Reader.ticket := by
  induction readers generalizing now unread with
  | nil => rw [forecast, List.map_nil, List.map_nil]
  | cons r readers ih =>
    cases unread with
    | nil =>
      rw [forecast]
      exact congrArg (r.ticket :: ·) (ih _ _)
    | cons bytes more =>
      rw [forecast]
      exact congrArg (r.ticket :: ·) (ih _ _)

/-- **Those who come first are served first**: the others find the frames that these have
left, when these have ended. -/
theorem forecast_append (h : ∀ r ∈ early, r.deadline = none) :
    forecast now unread (early ++ late) = forecast now unread early ++
      forecast (now + ((early.map Reader.patience).drop unread.length).sum)
        (unread.drop early.length) late := by
  induction early generalizing now unread with
  | nil => simp [forecast]
  | cons r early ih =>
    have hfresh := h r List.mem_cons_self
    have hothers := fun r' hr' => h r' (List.mem_cons_of_mem _ hr')
    cases unread with
    | nil =>
      rw [List.cons_append, forecast, forecast, ih hothers, hfresh]
      simp [Nat.add_assoc]
    | cons bytes more =>
      rw [List.cons_append, forecast, forecast, ih hothers]
      simp

/-- How the turn of a read ends, and when, if others with some patience go first. -/
def turn (now : Nat) (unread : List Octets) (waits : List Nat) (patience : Nat) :
    ReadOutcome × Nat :=
  match unread[waits.length]? with
  | some bytes => (.frame bytes, now)
  | none => (.nothing, now + ((waits ++ [patience]).drop unread.length).sum)

/-- The turn of the first read is foretold by those that have had theirs. -/
theorem forecast_cons (waits : List Nat) (ticket patience : Nat) (late : List Reader) :
    ∃ rest, forecast (now + (waits.drop unread.length).sum) (unread.drop waits.length)
        ({ ticket, patience } :: late) =
      (ticket, turn now unread waits patience) :: rest ∧
        rest.map Prod.fst = late.map Reader.ticket := by
  unfold turn
  cases hnext : unread[waits.length]? with
  | some bytes =>
    obtain ⟨hlt, rfl⟩ := List.getElem?_eq_some_iff.1 hnext
    rw [List.drop_eq_getElem_cons hlt, List.drop_eq_nil_of_le (Nat.le_of_lt hlt), forecast]
    exact ⟨_, rfl, forecast_map_fst ..⟩
  | none =>
    have hle := List.getElem?_eq_none_iff.1 hnext
    rw [List.drop_eq_nil_of_le hle, forecast, List.drop_append_of_le_length hle,
      List.sum_append, List.sum_singleton, ← Nat.add_assoc]
    exact ⟨_, rfl, forecast_map_fst ..⟩

end Link

namespace Loopback

variable {lo lo' : Loopback} {name : String} {link handle ticket now j : Nat} {hd : Handle}
  {l : Link} {r : Reader} {handles early late : List Nat}

/-! ### Those who queue -/

/-- The patience of a read through an open handle that leads to a link. -/
def patienceAt? (lo : Loopback) (link handle : Nat) : Option Nat :=
  (lo.handles[handle]?).bind fun hd =>
    if !hd.closed && hd.link = link then some hd.patience else none

/-- The reads that queue on a link when they are started through handles. -/
def entrants (lo : Loopback) (link : Nat) : Nat → List Nat → List Reader
  | _, [] => []
  | ticket, handle :: rest =>
    ((lo.patienceAt? link handle).toList.map fun patience => { ticket, patience }) ++
      lo.entrants link (ticket + 1) rest

theorem entrants_append :
    lo.entrants link ticket (early ++ late) =
      lo.entrants link ticket early ++ lo.entrants link (ticket + early.length) late := by
  induction early generalizing ticket with
  | nil => rfl
  | cons handle early ih =>
    rw [List.cons_append, entrants, ih, entrants, List.append_assoc, List.length_cons,
      Nat.add_assoc, Nat.add_comm 1]

/-- They have had no turn yet, and are told apart by their tickets. -/
theorem of_mem_entrants (h : r ∈ lo.entrants link ticket handles) :
    r.deadline = none ∧ ticket ≤ r.ticket ∧ r.ticket < ticket + handles.length := by
  induction handles generalizing ticket with
  | nil => cases h
  | cons handle handles ih =>
    rcases List.mem_append.1 h with hfirst | hlater
    · obtain ⟨patience, -, rfl⟩ := List.mem_map.1 hfirst
      exact ⟨rfl, Nat.le_refl _, by simp⟩
    · obtain ⟨hfresh, hle, hlt⟩ := ih hlater
      rw [List.length_cons]
      exact ⟨hfresh, by omega, by omega⟩

theorem entrants_congr (h : lo'.handles = lo.handles) :
    lo'.entrants link ticket handles = lo.entrants link ticket handles := by
  induction handles generalizing ticket with
  | nil => rfl
  | cons handle handles ih =>
    rw [entrants, ih, entrants, patienceAt?, h]
    rfl

/-- A read that is refused queues nowhere. -/
theorem patienceAt?_of_error {e : Error} (h : lo.access handle = .error e)
    (hl : lo.links[link]? = some l) : lo.patienceAt? link handle = none := by
  unfold access at h
  unfold patienceAt?
  cases hhd : lo.handles[handle]? with
  | none => rfl
  | some hd =>
    rw [hhd] at h
    rw [Option.bind_some]
    dsimp only at h
    split_ifs at h with hclosed
    · simp [hclosed]
    · refine if_neg fun hopen => ?_
      simp only [Bool.and_eq_true, decide_eq_true_eq] at hopen
      rw [hopen.2, hl] at h
      cases h

theorem patienceAt?_of_access (h : lo.access handle = .ok (hd, l)) :
    lo.patienceAt? link handle = if hd.link = link then some hd.patience else none := by
  obtain ⟨hhd, -⟩ := of_access h
  have hopen := isOpen_of_access h
  rw [isOpen, hhd, Option.any_some, Bool.not_eq_true'] at hopen
  simp [patienceAt?, hhd, hopen]

/-- Links with more reads. -/
def withReaders (lo : Loopback) (more : Nat → List Reader) : Loopback :=
  { lo with links := lo.links.mapIdx fun k l => { l with readers := l.readers ++ more k } }

theorem links_withReaders {more : Nat → List Reader} :
    (lo.withReaders more).links[link]? =
      (lo.links[link]?).map fun l => { l with readers := l.readers ++ more link } :=
  List.getElem?_mapIdx

/-- It matters only what comes to the links that there are. -/
theorem withReaders_congr {more more' : Nat → List Reader}
    (h : ∀ (k : Nat) l, lo.links[k]? = some l → more k = more' k) :
    lo.withReaders more = lo.withReaders more' := by
  refine congrArg (Loopback.mk · _ _) (List.ext_getElem? fun k => ?_)
  rw [List.getElem?_mapIdx, List.getElem?_mapIdx]
  cases hl : lo.links[k]? with
  | none => rfl
  | some l => rw [h k l hl]

theorem withReaders_nil (lo : Loopback) : lo.withReaders (fun _ => []) = lo := by
  refine congrArg (Loopback.mk · _ _) (List.ext_getElem? fun k => ?_)
  rw [List.getElem?_mapIdx]
  simp

theorem withReaders_withReaders {more more' : Nat → List Reader} :
    (lo.withReaders more).withReaders more' = lo.withReaders fun k => more k ++ more' k := by
  refine congrArg (Loopback.mk · _ _) (List.ext_getElem? fun k => ?_)
  rw [List.getElem?_mapIdx, links_withReaders, List.getElem?_mapIdx, Option.map_map]
  simp [Function.comp_def]

/-- A read queues on the link of its handle. -/
theorem queueReader_eq (hhd : lo.handles[handle]? = some hd) :
    lo.queueReader handle ticket = lo.withReaders fun k =>
      if hd.link = k then [{ ticket, patience := hd.patience }] else [] := by
  simp only [queueReader, hhd]
  refine congrArg (Loopback.mk · _ _) (List.ext_getElem? fun k => ?_)
  rw [List.getElem?_modify, List.getElem?_mapIdx]
  cases lo.links[k]? with
  | none => rfl
  | some l =>
    by_cases hlink : hd.link = k
    · simp [hlink]
    · simp [hlink]

/-- **Reads that are started** queue in order on the links of their handles. -/
theorem startReads_snd :
    (lo.startReads ticket handles).2 =
      lo.withReaders fun link => lo.entrants link ticket handles := by
  induction handles generalizing lo ticket with
  | nil => exact (withReaders_nil lo).symm
  | cons handle handles ih =>
    rw [startReads]
    cases hacc : lo.access handle with
    | error e =>
      rw [queueRead_of_error hacc]
      refine ih.trans (withReaders_congr fun k l hl => ?_)
      rw [entrants, patienceAt?_of_error hacc hl]
      rfl
    | ok found =>
      obtain ⟨hhd, -⟩ := of_access hacc
      rw [queueRead_of_access hacc]
      refine ih.trans ?_
      simp only [entrants_congr handles_queueReader]
      rw [queueReader_eq hhd, withReaders_withReaders]
      refine withReaders_congr fun k l hl => ?_
      rw [entrants, patienceAt?_of_access hacc]
      split_ifs <;> rfl

/-- Why a read through a handle is refused, if it is. -/
def refusal? (lo : Loopback) (handle : Nat) : Option Error :=
  match lo.access handle with
  | .error e => some e
  | .ok _ => none

theorem refusal?_withReaders {more : Nat → List Reader} :
    (lo.withReaders more).refusal? handle = lo.refusal? handle := by
  have hhandles : (lo.withReaders more).handles = lo.handles := rfl
  unfold refusal? access
  simp only [links_withReaders, hhandles]
  cases lo.handles[handle]? with
  | none => rfl
  | some hd =>
    dsimp only
    split_ifs
    · rfl
    · cases lo.links[hd.link]? <;> rfl

theorem ticket_le_of_mem_startReads {e : Nat × Error}
    (h : e ∈ (lo.startReads ticket handles).1) : ticket ≤ e.1 := by
  induction handles generalizing lo ticket with
  | nil => cases h
  | cons handle handles ih =>
    rw [startReads] at h
    cases hqueue : lo.queueRead handle ticket with
    | error e' =>
      rw [hqueue] at h
      rcases List.mem_cons.1 h with rfl | hlater
      · exact Nat.le_refl _
      · exact Nat.le_of_succ_le (ih hlater)
    | ok lo' =>
      rw [hqueue] at h
      exact Nat.le_of_succ_le (ih h)

/-- **Which reads are refused** is a matter of their handles alone. -/
theorem lookup_startReads (hj : handles[j]? = some handle) :
    (lo.startReads ticket handles).1.lookup (ticket + j) = lo.refusal? handle := by
  induction handles generalizing lo ticket j with
  | nil => cases hj
  | cons first handles ih =>
    have hnext : ∀ j, ticket + (j + 1) = ticket + 1 + j := fun j => by omega
    rw [startReads]
    cases hacc : lo.access first with
    | error e =>
      rw [queueRead_of_error hacc]
      cases j with
      | zero =>
        obtain rfl := Option.some.inj hj
        simp [refusal?, hacc]
      | succ j =>
        have hne : (ticket + 1 + j == ticket) = false := by
          simp
          omega
        rw [hnext, List.lookup_cons, hne]
        exact ih hj
    | ok found =>
      obtain ⟨hhd, -⟩ := of_access hacc
      rw [queueRead_of_access hacc]
      cases j with
      | zero =>
        obtain rfl := Option.some.inj hj
        rw [refusal?, hacc]
        refine List.lookup_eq_none_iff.2 fun e he => ?_
        have hle := ticket_le_of_mem_startReads he
        simp
        omega
      | succ j =>
        rw [hnext]
        refine (ih hj).trans ?_
        rw [queueReader_eq hhd, refusal?_withReaders]

/-- A read that queues is one more. -/
theorem length_readers_modify (links : List Link) (k : Nat) (r : Reader) :
    ((links.modify k fun l => { l with readers := l.readers ++ [r] }).flatMap
      (·.readers)).length ≤ (links.flatMap (·.readers)).length + 1 := by
  induction links generalizing k with
  | nil =>
    rw [List.modify_nil]
    exact Nat.zero_le _
  | cons l links ih =>
    cases k with
    | zero =>
      rw [List.modify_zero_cons, List.flatMap_cons, List.flatMap_cons, List.length_append,
        List.length_append, List.length_append, List.length_singleton]
      omega
    | succ k =>
      have hrest := ih k
      rw [List.modify_succ_cons, List.flatMap_cons, List.flatMap_cons, List.length_append,
        List.length_append]
      omega

/-- No more reads queue than are started. -/
theorem length_readers_startReads :
    ((lo.startReads ticket handles).2.links.flatMap (·.readers)).length ≤
      (lo.links.flatMap (·.readers)).length + handles.length := by
  induction handles generalizing lo ticket with
  | nil => exact Nat.le_refl _
  | cons handle handles ih =>
    rw [startReads, List.length_cons]
    cases hqueue : lo.queueRead handle ticket with
    | error e => exact Nat.le_trans ih (by omega)
    | ok lo' =>
      obtain ⟨⟨hd, l⟩, hacc, rfl⟩ := of_queueRead hqueue
      obtain ⟨hhd, -⟩ := of_access hacc
      have hone := length_readers_modify lo.links hd.link { ticket, patience := hd.patience }
      have hrest := @ih (lo.queueReader handle ticket) (ticket + 1)
      have hlinks : (lo.queueReader handle ticket).links = lo.links.modify hd.link
          fun l => { l with readers := l.readers ++ [{ ticket, patience := hd.patience }] } := by
        rw [queueReader, hhd]
      rw [hlinks] at hrest
      dsimp only
      omega

/-! ### What is bound to come of them -/

/-- The patience of the reads through open handles of an interface. -/
def patiences (lo : Loopback) (name : String) (handles : List Nat) : List Nat :=
  handles.filterMap fun handle => (lo.handles[handle]?).bind fun hd =>
    if !hd.closed && hd.interface = name then some hd.patience else none

/-- Handles lead to the same link if they are of the same interface. -/
theorem Wired.link_eq_iff (h : lo.Wired) (hl : lo.links[link]? = some l) (hhd : hd ∈ lo.handles) :
    hd.link = link ↔ hd.interface = l.name := by
  obtain ⟨m, hm, hname⟩ := h.reach hd hhd
  constructor
  · rintro rfl
    rw [← hname, Option.some.inj (hm.symm.trans hl)]
  · intro hsame
    have hat : ∀ {k : Nat} {n : Link}, lo.links[k]? = some n →
        (lo.links.map Link.name)[k]? = some n.name := fun hk => by
      rw [List.getElem?_map, hk, Option.map_some]
    obtain ⟨hlt, hlink⟩ := List.getElem?_eq_some_iff.1 (hat hm)
    obtain ⟨hlt', hlink'⟩ := List.getElem?_eq_some_iff.1 (hat hl)
    exact (List.Nodup.getElem_inj_iff h.names).1
      (hlink.trans ((hname.trans hsame).trans hlink'.symm))

/-- The reads of a link are those of its interface. -/
theorem Wired.patience_entrants (h : lo.Wired) (hl : lo.links[link]? = some l) :
    (lo.entrants link ticket handles).map Reader.patience = lo.patiences l.name handles := by
  induction handles generalizing ticket with
  | nil => rfl
  | cons handle handles ih =>
    rw [entrants, List.map_append, ih, patiences, patiences, List.filterMap_cons]
    unfold patienceAt?
    cases hhd : lo.handles[handle]? with
    | none => rfl
    | some hd =>
      have hiff := h.link_eq_iff hl (List.mem_of_getElem? hhd)
      rw [Option.bind_some, Option.bind_some]
      cases hd.closed <;> by_cases hlink : hd.link = link <;>
        simp [hlink, ← hiff]

/-- The lines of reads that were started together bear their tickets. -/
theorem ticket_mem_Ico {told : ReadOutcome × Nat} {lines : List (Nat × ReadOutcome × Nat)}
    (hlines : lines.map Prod.fst = (lo.entrants link ticket handles).map Reader.ticket)
    (h : (j, told) ∈ lines) : ticket ≤ j ∧ j < ticket + handles.length := by
  have hticket := List.mem_map_of_mem (f := Prod.fst) h
  rw [hlines] at hticket
  obtain ⟨r, hr, rfl⟩ := List.mem_map.1 hticket
  exact (of_mem_entrants hr).2

/-- **The line of a read** in the forecast of its link: it has its turn after those that were
started before it. -/
theorem Wired.mem_forecast (h : lo.Wired) (hl : lo.links[link]? = some l)
    (hj : handles[j]? = some handle) {told : ReadOutcome × Nat} :
    (j, told) ∈ Link.forecast now l.unread (lo.entrants link 0 handles) ↔
      ∃ patience ∈ lo.patienceAt? link handle,
        told = Link.turn now l.unread (lo.patiences l.name (handles.take j)) patience := by
  obtain ⟨hlt, hat⟩ := List.getElem?_eq_some_iff.1 hj
  have hsplit : handles = handles.take j ++ handle :: handles.drop (j + 1) := by
    rw [← hat, List.getElem_cons_drop, List.take_append_drop]
  have hlength : (handles.take j).length = j := List.length_take_of_le (Nat.le_of_lt hlt)
  have hwaits : (lo.entrants link 0 (handles.take j)).map Reader.patience =
      lo.patiences l.name (handles.take j) := h.patience_entrants hl
  generalize lo.patiences l.name (handles.take j) = waits at hwaits ⊢
  have hall : lo.entrants link 0 handles = lo.entrants link 0 (handles.take j) ++
      (((lo.patienceAt? link handle).toList.map fun patience => { ticket := j, patience }) ++
        lo.entrants link (j + 1) (handles.drop (j + 1))) := by
    conv => lhs; rw [hsplit, entrants_append, hlength, Nat.zero_add]
    rfl
  have hbefore : (j, told) ∉
      Link.forecast now l.unread (lo.entrants link 0 (handles.take j)) := by
    intro hmem
    obtain ⟨-, hlate⟩ := ticket_mem_Ico (Link.forecast_map_fst ..) hmem
    omega
  have hafter : ∀ rest : List (Nat × ReadOutcome × Nat), rest.map Prod.fst =
      (lo.entrants link (j + 1) (handles.drop (j + 1))).map Reader.ticket → (j, told) ∉ rest :=
    fun rest hrest hmem => Nat.not_succ_le_self j (ticket_mem_Ico hrest hmem).1
  have hfresh : ∀ r ∈ lo.entrants link 0 (handles.take j), r.deadline = none :=
    fun r hr => (of_mem_entrants hr).1
  have hcount : (lo.entrants link 0 (handles.take j)).length = waits.length := by
    rw [← hwaits, List.length_map]
  rw [hall, Link.forecast_append hfresh, hwaits, hcount, List.mem_append,
    or_iff_right hbefore]
  cases hpatience : lo.patienceAt? link handle with
  | none =>
    rw [Option.toList_none, List.map_nil, List.nil_append]
    exact iff_of_false (hafter _ (Link.forecast_map_fst ..)) (by simp)
  | some patience =>
    obtain ⟨rest, hforecast, hrest⟩ := Link.forecast_cons waits j patience
      (lo.entrants link (j + 1) (handles.drop (j + 1)))
    rw [Option.toList_some, List.map_singleton, List.singleton_append, hforecast, List.mem_cons,
      or_iff_left (hafter rest hrest)]
    simp

/-- How a read ends, and when, that is started after others. -/
def outcome (lo : Loopback) (now : Nat) (earlier : List Nat) (handle : Nat) : ReadResult × Nat :=
  match lo.handles[handle]? with
  | none => (.error (.captureClosed ""), now)
  | some hd =>
    if hd.closed then (.error (.captureClosed hd.interface), now)
    else
      let waits := lo.patiences hd.interface earlier
      let unread := lo.unreadOn hd.interface
      match unread[waits.length]? with
      | some bytes => (.ok (some bytes), now)
      | none => (.ok none, now + ((waits ++ [hd.patience]).drop unread.length).sum)

/-- A read that is refused ends so. -/
theorem Wired.outcome_of_refusal (h : lo.Wired) {e : Error} (he : lo.refusal? handle = some e)
    (earlier : List Nat) : lo.outcome now earlier handle = (.error e, now) := by
  unfold refusal? access at he
  unfold outcome
  cases hhd : lo.handles[handle]? with
  | none =>
    rw [hhd] at he
    rw [← Option.some.inj he]
  | some hd =>
    rw [hhd] at he
    dsimp only at he ⊢
    split_ifs at he ⊢
    · rw [← Option.some.inj he]
    · obtain ⟨l, hl, -⟩ := h.reach hd (List.mem_of_getElem? hhd)
      rw [hl] at he
      cases he

/-- A read that queues ends with its turn. -/
theorem Wired.outcome_of_access (h : lo.Wired) (hacc : lo.access handle = .ok (hd, l))
    (earlier : List Nat) :
    let told := Link.turn now l.unread (lo.patiences l.name earlier) hd.patience
    lo.outcome now earlier handle = (told.1.result hd.interface, told.2) := by
  obtain ⟨hhd, hl⟩ := of_access hacc
  have hopen := isOpen_of_access hacc
  rw [isOpen, hhd, Option.any_some, Bool.not_eq_true'] at hopen
  have hmem := List.mem_of_getElem? hhd
  have hname : hd.interface = l.name := (h.link_eq_iff hl hmem).1 rfl
  have hunread : lo.unreadOn hd.interface = l.unread := by
    rw [unreadOn, ← h.link?_interface hmem, hl, Option.elim_some]
  simp only [outcome, hhd, hopen, Bool.false_eq_true, if_false, hunread, Link.turn, ← hname]
  cases l.unread[(lo.patiences hd.interface earlier).length]? <;> rfl

/-- The links of reads that are started while none is under way. -/
theorem of_mem_started (hidle : ∀ l ∈ lo.links, l.readers = [])
    (hl : l ∈ (lo.startReads 0 handles).2.links) :
    ∃ (k : Nat) (m : Link), lo.links[k]? = some m ∧
      l = { m with readers := lo.entrants k 0 handles } := by
  rw [startReads_snd] at hl
  obtain ⟨k, hk⟩ := List.mem_iff_getElem?.1 hl
  rw [links_withReaders] at hk
  obtain ⟨m, hm, rfl⟩ := Option.map_eq_some_iff.1 hk
  exact ⟨k, m, hm, by rw [hidle m (List.mem_of_getElem? hm), List.nil_append]⟩

/-- **What is bound to come of reads** that are started while none is under way. -/
theorem Wired.destined (h : lo.Wired) (hidle : ∀ l ∈ lo.links, l.readers = []) :
    ({ loopback := (lo.startReads 0 handles).2, now } : ReadRun).Destined
      ((lo.startReads 0 handles).2.links.flatMap (·.outlook now))
      { lo with links := lo.links.map fun l =>
        { l with unread := l.unread.drop (lo.patiences l.name handles).length } } := by
  refine ⟨fun l hl => ?_, List.Perm.refl _, ?_⟩
  · obtain ⟨k, m, hm, rfl⟩ := of_mem_started hidle hl
    have hfresh : ∀ r ∈ lo.entrants k 0 handles, r.deadline = none :=
      fun r hr => (of_mem_entrants hr).1
    refine ⟨h.present m (List.mem_of_getElem? hm), fun r hr => hfresh r (List.mem_of_mem_tail hr),
      fun r hr due hdue => ?_⟩
    rw [hfresh r (List.mem_of_mem_head? hr)] at hdue
    cases hdue
  · rw [startReads_snd]
    refine congrArg (Loopback.mk · _ _) (List.ext_getElem? fun k => ?_)
    rw [List.getElem?_map, links_withReaders, List.getElem?_map, Option.map_map]
    cases hl : lo.links[k]? with
    | none => rfl
    | some l =>
      have hnone := hidle l (List.mem_of_getElem? hl)
      have hcount : (lo.entrants k 0 handles).length = (lo.patiences l.name handles).length := by
        rw [← h.patience_entrants hl, List.length_map]
      simp [Link.drained, hnone, hcount]

/-- **The line of a read** that queues is told once. -/
theorem Wired.mem_book (h : lo.Wired) (hidle : ∀ l ∈ lo.links, l.readers = [])
    (hj : handles[j]? = some handle) (hacc : lo.access handle = .ok (hd, l))
    {told : ReadOutcome × Nat} :
    (j, told) ∈ (lo.startReads 0 handles).2.links.flatMap (·.outlook now) ↔
      told = Link.turn now l.unread (lo.patiences l.name (handles.take j)) hd.patience := by
  obtain ⟨-, hl⟩ := of_access hacc
  rw [List.mem_flatMap]
  constructor
  · rintro ⟨l', hl', hmem⟩
    obtain ⟨k, m, hm, rfl⟩ := of_mem_started hidle hl'
    obtain ⟨patience, hpatience, rfl⟩ := (h.mem_forecast hm hj).1 hmem
    rw [patienceAt?_of_access hacc] at hpatience
    split_ifs at hpatience with hlink
    · obtain rfl := Option.some.inj hpatience
      rw [hlink, hm] at hl
      obtain rfl := Option.some.inj hl
      rfl
    · cases hpatience
  · rintro rfl
    refine ⟨{ l with readers := lo.entrants hd.link 0 handles }, ?_, ?_⟩
    · rw [startReads_snd]
      refine List.mem_of_getElem? (i := hd.link) ?_
      rw [links_withReaders, hl, Option.map_some, hidle l (List.mem_of_getElem? hl),
        List.nil_append]
    · refine (h.mem_forecast hl hj).2 ⟨hd.patience, ?_, rfl⟩
      rw [patienceAt?_of_access hacc, if_pos rfl]
      rfl

/-- What is told once is found. -/
theorem lookup_of_mem_iff {α : Type} {told : α} {book : List (Nat × α)}
    (h : ∀ other, (j, other) ∈ book ↔ other = told) : book.lookup j = some told := by
  cases hfound : book.lookup j with
  | none =>
    have hnot := List.lookup_eq_none_iff.1 hfound _ ((h told).2 rfl)
    simp at hnot
  | some other =>
    obtain ⟨before, after, rfl, -⟩ := List.lookup_eq_some_iff.1 hfound
    rw [(h other).1 (by simp)]

/-- **Reads that are started together** while none is under way.  A read through a handle that
is not open fails at once.  The others take the frames that wait on their interface, at once
and in the order in which they were started; when there are none left, each has nothing as
soon as its patience has run out after that of those before it. -/
theorem Wired.readAll (h : lo.Wired) (hidle : ∀ l ∈ lo.links, l.readers = [])
    (now : Nat) (handles : List Nat) :
    (lo.readAll now handles).1.length = handles.length ∧
      (∀ (j : Nat) handle, handles[j]? = some handle →
        (lo.readAll now handles).1[j]? = some (lo.outcome now (handles.take j) handle)) ∧
      (lo.readAll now handles).2.2 = { lo with links := lo.links.map fun l =>
        { l with unread := l.unread.drop (lo.patiences l.name handles).length } } := by
  -- The reads that queue, then the first standstill, then the end.
  have hdestined : ({ loopback := (lo.startReads 0 handles).2, now } : ReadRun).Destined _ _ :=
    h.destined hidle
  have hpending : ({ loopback := (lo.startReads 0 handles).2, now } : ReadRun).pending ≤
      handles.length := by
    have hle := @length_readers_startReads lo 0 handles
    rwa [List.flatMap_eq_nil_iff.2 hidle, List.length_nil, Nat.zero_add] at hle
  unfold Loopback.readAll
  dsimp only
  generalize hfirst : ReadRun.machine.settle
    { loopback := (lo.startReads 0 handles).2, now } = first
  obtain ⟨hsettled, hnow, hable, hfewer, -⟩ := hfirst ▸ hdestined.settle
  obtain ⟨hlast, hnone⟩ := hsettled.runOut hable (Nat.le_trans hfewer hpending)
  obtain ⟨hended, hloopback⟩ := hlast.ended hnone
  rw [hnow] at hended hloopback
  refine ⟨by rw [List.length_map, List.length_zipIdx], fun j handle hj => ?_, hloopback⟩
  have hlookup : (lo.startReads 0 handles).1.lookup (0 + j) = lo.refusal? handle :=
    lookup_startReads hj
  rw [Nat.zero_add] at hlookup
  rw [List.getElem?_map, List.getElem?_zipIdx, hj, Option.map_some, Option.map_some, Nat.zero_add]
  dsimp only
  rw [hlookup]
  cases hacc : lo.access handle with
  | error e =>
    have hrefused : lo.refusal? handle = some e := by rw [refusal?, hacc]
    rw [hrefused, h.outcome_of_refusal hrefused]
  | ok found =>
    obtain ⟨hd, l⟩ := found
    obtain ⟨hhd, -⟩ := of_access hacc
    have hqueued : lo.refusal? handle = none := by rw [refusal?, hacc]
    have hline : (ReadRun.machine.runOut handles.length now first).2.ended.lookup j = some _ :=
      lookup_of_mem_iff fun other => hended.mem_iff.trans (h.mem_book hidle hj hacc)
    rw [hqueued, hline, h.outcome_of_access hacc, hhd]
    rfl

/-- Whether a handle is of an interface. -/
def leadsTo (lo : Loopback) (name : String) (handle : Nat) : Bool :=
  (lo.handles[handle]?).any (·.interface = name)

/-- **A read is not concerned** with those of other interfaces. -/
theorem outcome_filter (hhd : lo.handles[handle]? = some hd) (earlier : List Nat) :
    lo.outcome now (earlier.filter (lo.leadsTo hd.interface)) handle =
      lo.outcome now earlier handle := by
  have hsame : lo.patiences hd.interface (earlier.filter (lo.leadsTo hd.interface)) =
      lo.patiences hd.interface earlier := by
    rw [patiences, List.filterMap_filter, patiences]
    refine List.filterMap_congr fun other _ => ?_
    unfold leadsTo
    cases lo.handles[other]? with
    | none => rfl
    | some hd' => by_cases hname : hd'.interface = hd.interface <;> simp [hname]
  simp only [outcome, hhd, hsame]

end Loopback

namespace ReadLog

/-- **Frames are delivered** once and in the order in which they were injected.  Whatever is
done to links and reads, what the reads of an interface have returned, in the order in which
they ended, and then what waits there, is what was injected on it: what was returned is a
beginning of it.

And when no read is under way, reads that are started together end as is told by `outcome`:
those through handles that are not open fail at once; the others of an interface, in the order
in which they were started, take the frames that wait there at once, and when none is left each
has nothing as soon as its patience has run out after that of those before it.  What a read
gives depends on those of its own interface that were started before it, and on no others; and
of what waits only what was taken is gone. -/
theorem frames_delivered (moves : List Move) :
    let log := ofMoves moves
    let lo := log.run.loopback
    (∀ name, log.returned name ++ log.unread name = moves.flatMap (injected name)) ∧
      ((∀ l ∈ lo.links, l.readers = []) → ∀ (now : Nat) (handles : List Nat),
        (lo.readAll now handles).1.length = handles.length ∧
        (∀ (j : Nat) handle, handles[j]? = some handle →
          (lo.readAll now handles).1[j]? = some (lo.outcome now (handles.take j) handle)) ∧
        (∀ (handles' : List Nat) (j j' handle : Nat) hd, lo.handles[handle]? = some hd →
          handles[j]? = some handle → handles'[j']? = some handle →
          (handles.take j).filter (lo.leadsTo hd.interface) =
            (handles'.take j').filter (lo.leadsTo hd.interface) →
          (lo.readAll now handles).1[j]? = (lo.readAll now handles').1[j']?) ∧
        (lo.readAll now handles).2.2 = { lo with links := lo.links.map fun l =>
          { l with unread := l.unread.drop (lo.patiences l.name handles).length } }) := by
  intro log lo
  have hlog := adds_ofMoves moves
  refine ⟨hlog.frames, fun hidle now handles => ?_⟩
  obtain ⟨hlength, hresults, hlast⟩ := hlog.sound.wired.readAll hidle now handles
  refine ⟨hlength, hresults, fun handles' j j' handle hd hhd hj hj' hsame => ?_, hlast⟩
  obtain ⟨-, hresults', -⟩ := hlog.sound.wired.readAll hidle now handles'
  rw [hresults j handle hj, hresults' j' handle hj', ← Loopback.outcome_filter hhd, hsame,
    Loopback.outcome_filter hhd]

/-- Three frames are injected and one of them is read; two reads then take the others, one on
a closed handle fails, one of another interface waits for its own patience, and two wait in
turn. -/
theorem frames_delivered_in_turn :
    let moves : List Move :=
      [.use (.inject "a" [[1], [2], [3]]), .openHandle "a" 50 "", .openHandle "a" 20 "",
        .openHandle "b" 10 "", .openHandle "a" 5 "", .close 3, .read 0, .serve 0]
    let log := ofMoves moves
    let lo := log.run.loopback
    let results := (lo.readAll 100 [0, 3, 2, 1, 0, 1]).1
    (∀ l ∈ lo.links, l.readers = []) ∧
      log.returned "a" ++ [[2], [3]] = [[1], [2], [3]] ∧
      results[0]? = some (.ok (some [2]), 100) ∧
      results[1]? = some (.error (.captureClosed "a"), 100) ∧
      results[2]? = some (.ok none, 110) ∧
      results[3]? = some (.ok (some [3]), 100) ∧
      results[4]? = some (.ok none, 150) ∧
      results[5]? = some (.ok none, 170) := by
  intro moves log lo results
  obtain ⟨hframes, hreads⟩ := frames_delivered moves
  have hidle : ∀ l ∈ lo.links, l.readers = [] := by decide
  obtain ⟨-, hresults, -, -⟩ := hreads hidle 100 [0, 3, 2, 1, 0, 1]
  refine ⟨hidle, (hframes "a"), ?_, ?_, ?_, ?_, ?_, ?_⟩
  · exact (hresults 0 0 rfl).trans (by decide)
  · exact (hresults 1 3 rfl).trans (by decide)
  · exact (hresults 2 2 rfl).trans (by decide)
  · exact (hresults 3 1 rfl).trans (by decide)
  · exact (hresults 4 0 rfl).trans (by decide)
  · exact (hresults 5 1 rfl).trans (by decide)

end ReadLog
end Lldp
