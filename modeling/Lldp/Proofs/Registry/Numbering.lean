/-
# Generations and handles are numbered alike

Every alteration of a registry is looked at for the capture of a port after it
(`capture?_adopt`, `capture?_stop`, …).  An interface that is opened takes the next
handle and the next generation at once, and nothing else takes either, so the two are
numbered alike (`Numbered`): a generation tells the handle that it is read through, also
for a task whose port has given the capture up.
-/

import Lldp.Proofs.Registry.Alterations
import Lldp.Proofs.Registry.Captures

namespace Lldp
namespace Registry

variable {r r' : Registry} {i j : IfIndex} {s : Session} {c d : Capture}
  {log : List CaptureTask} {timing : Timing}

/-! ### The capture of a port after an alteration -/

/-- Where all that has to do with captures is kept, so are they. -/
theorem Keeps.capture? (k : r.Keeps r') : r'.capture? j = r.capture? j := by
  cases hj : r'.session? j with
  | some s' =>
    obtain ⟨s, hs, hkeep⟩ := k.session j s' hj
    rw [Registry.capture?, Registry.capture?, hj, hs]
    exact hkeep.capture
  | none =>
    have hgone : r.session? j = none := by
      rw [session?_eq_none_iff, ← k.indexes, ← session?_eq_none_iff]
      exact hj
    rw [Registry.capture?, Registry.capture?, hj, hgone]

/-- **An interface that is opened** gives its port a capture of the next generation. -/
theorem capture?_adopt {handle : Nat} (hs : r.session? i = some s) :
    (r.adopt i handle).capture? j =
      if j = i then some ⟨r.generation + 1, handle⟩ else r.capture? j := by
  rw [capture?, session?_adopt]
  split_ifs with hj
  · rw [hj, hs]
    rfl
  · rfl

/-- A port that is stopped has no capture, and others have theirs. -/
theorem capture?_stop : (r.stop i).2.capture? j = if j = i then none else r.capture? j := by
  rw [capture?, session?_stop]
  split_ifs with hj
  · cases r.session? j <;> rfl
  · rfl

/-- A port that is stopped has the handle of its capture closed. -/
theorem stop_backend (hs : r.session? i = some s) :
    (r.stop i).2.backend = s.capture.elim r.backend fun c => r.backend.close c.handle := by
  rw [stop, hs]
  cases hc : s.capture <;> simp only [hc, modify_backend] <;> rfl

/-- With a port that is not captured, no capture is forgotten. -/
theorem capture?_drop (hs : r.session? i = some s) (hc : s.capture = none) :
    { r with sessions := r.sessions.filter (·.port.ifIndex ≠ i) }.capture? j = r.capture? j := by
  rw [capture?, session?_drop]
  split_ifs with hj
  · rw [hj, capture?, hs]
    exact hc.symm
  · rfl

/-- Other timing begins and ends no capture. -/
theorem capture?_retime : (r.retime timing).capture? j = r.capture? j := by
  rw [capture?, session?_retime, capture?, Option.bind_map]
  rfl

/-- **After an alteration a port has a capture** that it had before, or the next one. -/
theorem Alters.capture? (a : Alters r log r') {i : IfIndex} (h : r'.capture? i = some c) :
    r.capture? i = some c ∨ r.generation < c.generation := by
  induction a with
  | keep k => exact Or.inl (k.capture? ▸ h)
  | @opened r k s lo' hs hdue hopen =>
    have hs' : { r with backend := lo' }.session? k = some s := hs
    rw [capture?_adopt hs'] at h
    split_ifs at h
    · obtain rfl := Option.some.inj h
      exact Or.inr (Nat.lt_succ_self _)
    · exact Or.inl h
  | stopped hs =>
    rw [capture?_stop] at h
    split_ifs at h
    exact Or.inl h
  | added hs => exact Or.inl (capture?_add ▸ h)
  | dropped hs hc => exact Or.inl (capture?_drop hs hc ▸ h)
  | retimed timing => exact Or.inl (capture?_retime ▸ h)
  | trans a a' ih ih' =>
    rcases ih' h with hold | hnew
    · exact ih hold
    · have hg := a.generations.2
      exact Or.inr (by omega)

/-! ### Numbers -/

/-- Captures tell apart by their generations, and the handle of a capture has the number
before its generation. -/
structure Numbered (r : Registry) : Prop where
  agree : r.CapturesAgree
  length : r.backend.handles.length = r.generation
  handle : ∀ i c, r.IsOpened i c → c.generation = c.handle + 1

namespace Numbered

/-- Where nothing was opened yet, there is nothing to number. -/
theorem ofSettings (settings : Settings) : (Registry.ofSettings settings).Numbered where
  agree := .ofSettings settings
  length := rfl
  handle := by
    rintro i c (h | ⟨t, ht, -⟩)
    · cases h
    · cases ht

/-- Captures may be given up. -/
theorem of_isOpened (h : r.Numbered) (hg : r'.generation = r.generation)
    (hl : r'.backend.handles.length = r.backend.handles.length)
    (ho : ∀ i c, r'.IsOpened i c → r.IsOpened i c) : r'.Numbered where
  agree := h.agree.of_isOpened (Nat.le_of_eq hg.symm) ho
  length := by rw [hl, hg, h.length]
  handle i c hc := h.handle i c (ho i c hc)

/-- The same captures, or fewer, and the same tasks. -/
theorem of_captures (h : r.Numbered) (hg : r'.generation = r.generation)
    (hl : r'.backend.handles.length = r.backend.handles.length)
    (hc : ∀ j c, r'.capture? j = some c → r.capture? j = some c)
    (ht : r'.tasks = r.tasks) : r'.Numbered := by
  refine h.of_isOpened hg hl ?_
  rintro j c (hj | ⟨t, hmem, hj, rfl⟩)
  · exact Or.inl (hc j c hj)
  · exact Or.inr ⟨t, ht ▸ hmem, hj, rfl⟩

/-- **Every alteration** takes handles and generations together. -/
theorem alters (h : r.Numbered) (a : r.Alters log r') : r'.Numbered := by
  induction a with
  | keep k =>
    refine h.of_captures k.generation ?_ (fun j c hj => k.capture? ▸ hj) k.tasks
    rcases k.backend with hb | ⟨handle, bytes, hb⟩
    · rw [hb]
    · rw [Loopback.handles_of_write hb]
  | @opened r i s lo' hs hdue hopen =>
    have hs' : { r with backend := lo' }.session? i = some s := hs
    have hopened : ∀ j c,
        ({ r with backend := lo' }.adopt i r.backend.handles.length).IsOpened j c →
        r.IsOpened j c ∨ j = i ∧ c = ⟨r.generation + 1, r.backend.handles.length⟩ := by
      rintro j c (hj | ⟨t, ht, rfl, rfl⟩)
      · rw [capture?_adopt hs'] at hj
        split_ifs at hj with hi
        · exact Or.inr ⟨hi, (Option.some.inj hj).symm⟩
        · exact Or.inl (Or.inl hj)
      · rcases List.mem_append.1 ht with hold | hnew
        · exact Or.inl (Or.inr ⟨t, hold, rfl, rfl⟩)
        · rw [List.mem_singleton.1 hnew]
          exact Or.inr ⟨rfl, rfl⟩
    refine ⟨h.agree.of_next rfl hopened, ?_, fun j c hj => ?_⟩
    · obtain ⟨-, link, hhandles⟩ := Loopback.handles_of_openHandle hopen
      show lo'.handles.length = r.generation + 1
      rw [hhandles, List.length_append, List.length_singleton, h.length]
    · rcases hopened j c hj with hold | ⟨-, rfl⟩
      · exact h.handle j c hold
      · rw [h.length]
  | @stopped r i s hs =>
    refine h.of_captures ?_ ?_ (fun j c hj => ?_) ?_
    · rw [stop, hs]
      rfl
    · rw [stop_backend hs]
      cases s.capture with
      | none => rfl
      | some c => exact List.length_modify ..
    · rw [capture?_stop] at hj
      split_ifs at hj
      exact hj
    · rw [stop, hs]
      rfl
  | added hs =>
    refine h.of_captures ?_ (by rw [add_backend]) (fun j c hj => capture?_add ▸ hj) ?_
    · rw [add, hs]
    · rw [add, hs]
  | dropped hs hc => exact h.of_captures rfl rfl (fun j c hj => capture?_drop hs hc ▸ hj) rfl
  | retimed timing => exact h.of_captures rfl rfl (fun j c hj => capture?_retime ▸ hj) rfl
  | trans a a' ih ih' => exact ih' (ih h)

/-- **Captures that are read through one handle are one capture.** -/
theorem eq_of_handle (h : r.Numbered) (hc : r.IsOpened i c) (hd : r.IsOpened j d)
    (hh : c.handle = d.handle) : i = j ∧ c = d := by
  have hgeneration : c.generation = d.generation := by
    rw [h.handle i c hc, h.handle j d hd, hh]
  exact h.agree.unique i j c d hc hd hgeneration

end Numbered

end Registry
end Lldp
