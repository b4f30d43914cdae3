/-
# What waits on links

A link has two queues: the frames that were injected and not read (`unreadAt`), and the
reads that have queued for a turn (`ticketsAt`).  Opening, closing and writing through
handles touch neither, and leave every handle where it leads (`Quiet`), so nothing that is
done to a registry does (`Quiet.alters`).

What does is said in one equation each: frames that are injected come last
(`Wired.unreadAt_inject`), a read that queues comes last (`ticketsAt_queueReader`), and a
read that ends gives up its place and takes the first frame, if it got one (`of_serve`).
-/

import Lldp.Proofs.Wiring

namespace Lldp

/-- The frame that a turn ended with, if it ended with one. -/
def ReadOutcome.got : ReadOutcome → List Octets
  | .frame bytes => [bytes]
  | _ => []

/-- **What becomes of a link when the read whose turn it is goes on.** -/
theorem Link.of_serve {l l' : Link} {now : Nat} {ended : Option (Nat × ReadOutcome)}
    (h : l.serve now = (ended, l')) :
    l.unread = ended.elim [] (·.2.got) ++ l'.unread ∧
      l.readers.map Reader.ticket =
        ended.toList.map Prod.fst ++ l'.readers.map Reader.ticket ∧
      (l'.name = l.name ∧ l'.gone = l.gone) ∧
      ∀ ticket, ended = some (ticket, .gone) → l.gone = true := by
  unfold serve at h
  cases hreaders : l.readers with
  | nil =>
    rw [hreaders] at h
    obtain ⟨rfl, rfl⟩ := Prod.mk.inj h
    exact ⟨rfl, by rw [hreaders]; rfl, ⟨rfl, rfl⟩, nofun⟩
  | cons r rest =>
    cases hunread : l.unread with
    | cons bytes more =>
      simp only [hreaders, hunread] at h
      obtain ⟨rfl, rfl⟩ := Prod.mk.inj h
      exact ⟨rfl, rfl, ⟨rfl, rfl⟩, nofun⟩
    | nil =>
      simp only [hreaders, hunread] at h
      split_ifs at h with hgone hdeadline
      · obtain ⟨rfl, rfl⟩ := Prod.mk.inj h
        exact ⟨rfl, rfl, ⟨rfl, rfl⟩, fun _ _ => hgone⟩
      · obtain ⟨rfl, rfl⟩ := Prod.mk.inj h
        exact ⟨rfl, rfl, ⟨rfl, rfl⟩, nofun⟩
      · obtain ⟨rfl, rfl⟩ := Prod.mk.inj h
        exact ⟨rfl, rfl, ⟨rfl, rfl⟩, nofun⟩

namespace Loopback

variable {lo lo' lo'' : Loopback} {name filter : String} {patience handle link k now ticket : Nat}
  {bytes : Octets} {frames : List Octets} {l : Link} {hd : Handle}

/-- The frames that wait on a link to be read; none where there is no link yet. -/
def unreadAt (lo : Loopback) (link : Nat) : List Octets :=
  (lo.links[link]?).elim [] Link.unread

/-- The tickets of the reads that queue on a link; the first has its turn. -/
def ticketsAt (lo : Loopback) (link : Nat) : List Nat :=
  (lo.links[link]?).elim [] fun l => l.readers.map Reader.ticket

/-- The read that has its turn is the one that has queued first. -/
theorem turn?_eq_head? : lo.turn? link = (lo.ticketsAt link).head? := by
  unfold turn? ticketsAt
  cases lo.links[link]? with
  | none => rfl
  | some l => exact (List.head?_map ..).symm

/-- **A read whose turn it is goes on if there is a frame.** -/
theorem canServe_of_unreadAt (hunread : lo.unreadAt link ≠ []) (hturn : lo.ticketsAt link ≠ []) :
    lo.canServe link now = true := by
  unfold unreadAt at hunread
  unfold ticketsAt at hturn
  unfold canServe Link.canServe
  cases hl : lo.links[link]? with
  | none => exact absurd (by rw [hl]; rfl) hunread
  | some l =>
    rw [hl, Option.elim_some] at hunread hturn
    rw [Option.any_some]
    cases hreaders : l.readers with
    | nil => exact absurd (by rw [hreaders]; rfl) hturn
    | cons r rest => simp [hunread]

/-! ### What touches neither -/

/-- The same frames and reads wait on links, and handles lead where they did. -/
structure Quiet (lo lo' : Loopback) : Prop where
  unread : ∀ link, lo'.unreadAt link = lo.unreadAt link
  tickets : ∀ link, lo'.ticketsAt link = lo.ticketsAt link
  handles : ∀ (k : Nat) hd, lo.handles[k]? = some hd → ∃ hd', lo'.handles[k]? = some hd' ∧
    hd'.link = hd.link ∧ hd'.interface = hd.interface

namespace Quiet

/-- Where nothing happens, queues stay. -/
theorem refl (lo : Loopback) : Quiet lo lo :=
  ⟨fun _ => rfl, fun _ => rfl, fun _ hd hhd => ⟨hd, hhd, rfl, rfl⟩⟩

/-- What touches no queue twice touches none. -/
theorem trans (h : Quiet lo lo') (h' : Quiet lo' lo'') : Quiet lo lo'' where
  unread link := (h'.unread link).trans (h.unread link)
  tickets link := (h'.tickets link).trans (h.tickets link)
  handles k hd hhd := by
    obtain ⟨hd', hhd', hlink, hinterface⟩ := h.handles k hd hhd
    obtain ⟨hd'', hhd'', hlink', hinterface'⟩ := h'.handles k hd' hhd'
    exact ⟨hd'', hhd'', hlink'.trans hlink, hinterface'.trans hinterface⟩

/-- A link is changed in something else. -/
theorem onLink {change : Link → Link}
    (h : ∀ l, (change l).unread = l.unread ∧ (change l).readers = l.readers) :
    Quiet lo (lo.onLink name change).2 where
  unread _ := elim_onLink (fun l => (h l).1) rfl
  tickets _ := elim_onLink (fun l => congrArg (List.map Reader.ticket) (h l).2) rfl
  handles k hd hhd := ⟨hd, by rw [handles_onLink, hhd], rfl, rfl⟩

/-- **To open a handle** reads nothing and ends no read. -/
theorem openHandle (h : lo.openHandle name patience filter = .ok (handle, lo')) :
    Quiet lo lo' := by
  obtain rfl := of_openHandle h
  obtain ⟨hunread, htickets, hhandles⟩ := @onLink lo name
    (fun l => { l with opens := l.opens + 1, filter := some filter }) fun _ => ⟨rfl, rfl⟩
  refine ⟨hunread, htickets, fun k hd hhd => ?_⟩
  obtain ⟨hd', hhd', hsame⟩ := hhandles k hd hhd
  refine ⟨hd', ?_, hsame⟩
  rw [List.getElem?_append_left (List.getElem?_eq_some_iff.1 hhd').1]
  exact hhd'

/-- **To close a handle** leaves its reads in their places. -/
theorem close : Quiet lo (lo.close handle) where
  unread _ := rfl
  tickets _ := rfl
  handles k hd hhd := by
    rw [Loopback.close, List.getElem?_modify, hhd]
    refine ⟨_, rfl, ?_⟩
    split_ifs <;> exact ⟨rfl, rfl⟩

/-- **To write** has nothing to do with what is read. -/
theorem write (h : lo.write handle bytes = .ok lo') : Quiet lo lo' := by
  have hhandles := handles_of_write h
  unfold Loopback.write at h
  split at h
  · cases h
  · split_ifs at h
    obtain rfl := Except.ok.inj h
    exact ⟨fun _ => elim_modify fun _ => rfl, fun _ => elim_modify fun _ => rfl,
      fun k hd hhd => ⟨hd, hhd, rfl, rfl⟩⟩

/-- What others do with links, unless frames arrive. -/
theorem use {use : LinkUse} (h : ∀ name frames, use ≠ .inject name frames) :
    Quiet lo (lo.use use) := by
  cases use with
  | inject name frames => exact absurd rfl (h name frames)
  | failOpen name fail =>
    exact ⟨fun _ => rfl, fun _ => rfl, fun _ hd hhd => ⟨hd, hhd, rfl, rfl⟩⟩
  | failWrite name fail => exact onLink fun _ => ⟨rfl, rfl⟩

/-- **Nothing that is done to a registry** reads a frame or queues for one. -/
theorem alters {r r' : Registry} {log : List CaptureTask} (a : r.Alters log r') :
    Quiet r.backend r'.backend := by
  induction a with
  | keep h =>
    rcases h.backend with heq | ⟨handle, bytes, hwrite⟩
    · rw [heq]
      exact refl _
    · exact write hwrite
  | opened hs hdue hopen => exact openHandle hopen
  | @stopped r i s hs =>
    rw [Registry.stop_backend hs]
    cases s.capture with
    | none => exact refl _
    | some c => exact close
  | added hs =>
    rw [Registry.add_backend]
    exact refl _
  | dropped hs hc => exact refl _
  | retimed timing => exact refl _
  | trans a a' ih ih' => exact ih.trans ih'

end Quiet

/-! ### What touches them -/

/-- **Frames that are injected come last** on the link of their name, and touch no
other. -/
theorem Wired.unreadAt_inject (h : lo.Wired) (hl : lo.links[link]? = some l) :
    (lo.inject name frames).unreadAt link =
      lo.unreadAt link ++ if l.name = name then frames else [] := by
  unfold inject unreadAt
  rcases h.onLink_cases name fun l => { l with unread := l.unread ++ frames } with
    ⟨k, m, -, -, heq⟩ | ⟨hnew, heq⟩
  · rw [heq, List.getElem?_map, hl, Option.map_some, Option.elim_some, Option.elim_some]
    split_ifs
    · rfl
    · exact (List.append_nil _).symm
  · rw [heq, List.getElem?_append_left (List.getElem?_eq_some_iff.1 hl).1, hl, Option.elim_some,
      if_neg (hnew l (List.mem_of_getElem? hl)), List.append_nil]

/-- A frame that arrives moves no read. -/
theorem ticketsAt_inject : (lo.inject name frames).ticketsAt link = lo.ticketsAt link :=
  elim_onLink (fun _ => rfl) rfl

/-- **A read that queues comes last** on the link of its handle. -/
theorem ticketsAt_queueReader (hhd : lo.handles[handle]? = some hd)
    (hl : lo.links[hd.link]? = some l) :
    (lo.queueReader handle ticket).ticketsAt link =
      lo.ticketsAt link ++ if link = hd.link then [ticket] else [] := by
  simp only [queueReader, hhd, ticketsAt, List.getElem?_modify]
  by_cases hlink : link = hd.link
  · subst hlink
    simp [hl]
  · simp [hlink, Ne.symm hlink]

/-- A read that queues takes no frame yet. -/
theorem unreadAt_queueReader : (lo.queueReader handle ticket).unreadAt link = lo.unreadAt link := by
  unfold queueReader
  cases lo.handles[handle]? with
  | none => rfl
  | some hd => exact elim_modify fun _ => rfl

/-- What waits on links when one of them is put in the place of another. -/
theorem elim_set {β : Type} {f : Link → β} {b : β} {m : Link} (hl : lo.links[link]? = some l) :
    ((lo.links.set link m)[k]?).elim b f =
      if k = link then f m else (lo.links[k]?).elim b f := by
  split_ifs with hk
  · subst hk
    rw [List.getElem?_set_self (List.getElem?_eq_some_iff.1 hl).1, Option.elim_some]
  · rw [List.getElem?_set_ne (Ne.symm hk)]

/-- **A turn that ends** gives up its place and takes the first frame, if it got one. -/
theorem of_serve {ended : Option (Nat × ReadOutcome)} (h : lo.serve link now = (ended, lo')) :
    lo.unreadAt k = (if k = link then ended.elim [] (·.2.got) else []) ++ lo'.unreadAt k ∧
      lo.ticketsAt k = (if k = link then ended.toList.map Prod.fst else []) ++ lo'.ticketsAt k := by
  unfold serve at h
  cases hl : lo.links[link]? with
  | none =>
    rw [hl] at h
    obtain ⟨rfl, rfl⟩ := Prod.mk.inj h
    split_ifs <;> exact ⟨rfl, rfl⟩
  | some l =>
    rw [hl] at h
    obtain ⟨hended, rfl⟩ := Prod.mk.inj h
    obtain ⟨hunread, htickets, -, -⟩ := Link.of_serve (l := l) (Prod.ext hended rfl)
    unfold unreadAt ticketsAt
    dsimp only
    rw [elim_set hl, elim_set hl]
    split_ifs with hk
    · rw [hk, hl]
      exact ⟨hunread, htickets⟩
    · exact ⟨rfl, rfl⟩

/-- A turn that goes on leaves links known by what they were. -/
theorem labels_of_serve {ended : Option (Nat × ReadOutcome)}
    (h : lo.serve link now = (ended, lo')) : lo'.labels = lo.labels := by
  unfold serve at h
  cases hl : lo.links[link]? with
  | none =>
    rw [hl] at h
    rw [← (Prod.mk.inj h).2]
  | some l =>
    rw [hl] at h
    obtain ⟨hended, rfl⟩ := Prod.mk.inj h
    obtain ⟨-, -, ⟨hname, hgone⟩, -⟩ := Link.of_serve (l := l) (Prod.ext hended rfl)
    refine List.ext_getElem? fun j => ?_
    simp only [labels, List.getElem?_map, List.getElem?_set]
    split_ifs with hj hlt
    · rw [← hj, hl, Option.map_some, Option.map_some, hname, hgone]
    · exact absurd (List.getElem?_eq_some_iff.1 hl).1 hlt
    · rfl

/-- Links keep their names when reads queue. -/
theorem labels_queueReader : (lo.queueReader handle ticket).labels = lo.labels := by
  unfold queueReader
  cases lo.handles[handle]? with
  | none => rfl
  | some hd => exact labels_modify fun _ => ⟨rfl, rfl⟩

/-- Nothing can come only on a link that is cut off. -/
theorem of_serve_gone (h : lo.serve link now = (some (ticket, .gone), lo')) :
    ∃ l ∈ lo.links, l.gone = true := by
  unfold serve at h
  cases hl : lo.links[link]? with
  | none =>
    rw [hl] at h
    cases h
  | some l =>
    rw [hl] at h
    obtain ⟨hended, -⟩ := Prod.mk.inj h
    obtain ⟨-, -, -, hgone⟩ := Link.of_serve (l := l) (Prod.ext hended rfl)
    exact ⟨l, List.mem_of_getElem? hl, hgone ticket rfl⟩

end Loopback
end Lldp
