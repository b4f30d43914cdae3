/-
# Captures and what goes with them

A captured port has a capture, a place among the captured ports, a ticker and an open
handle; a port that is not captured has none of them and no packet ready.  `InOrder`
holds these together.  It knows the ports whose interfaces have been opened so far, one
entry for every time, and says that the captured ports are listed by the last of their
entries: opening puts a port at the end, and stopping takes it out wherever it is.

The handles of the captured ports, in the order of the list, are all the handles that
are open.  This one equation says both that no handle is left open and that no captured
port has a closed one, and so that no two ports share one.

Every alteration of a registry keeps it (`InOrder.alters`).
-/

import Lldp.Proofs.Registry.Gating
import Lldp.Proofs.Registry.Numbering
import Mathlib.Data.List.Dedup

namespace Lldp

/-! ### Lists in the order of last entries -/

section Lists

variable {α β : Type} [DecidableEq α] [DecidableEq β] {p q : α → Bool} {x : α}

/-- One more entry moves its element to the end. -/
theorem filter_dedup_concat (hx : p x = false) (hq : ∀ y, q y = (p y || y = x)) (l : List α) :
    (l ++ [x]).dedup.filter q = l.dedup.filter p ++ [x] := by
  induction l with
  | nil =>
    have hqx : q x = true := by simp [hq]
    rw [List.nil_append, List.dedup_cons_of_notMem List.not_mem_nil, List.dedup_nil,
      List.filter_cons_of_pos hqx]
    rfl
  | cons y l ih =>
    rw [List.cons_append]
    by_cases hy : y ∈ l
    · rw [List.dedup_cons_of_mem (List.mem_append_left _ hy), List.dedup_cons_of_mem hy, ih]
    · by_cases hyx : y = x
      · subst hyx
        rw [List.dedup_cons_of_mem (List.mem_append_right _ (List.mem_singleton_self y)),
          List.dedup_cons_of_notMem hy, ih, List.filter_cons_of_neg (by simp [hx])]
      · have hnot : y ∉ l ++ [x] := by simp [hy, hyx]
        have hsame : q y = p y := by simp [hq, hyx]
        rw [List.dedup_cons_of_notMem hnot, List.dedup_cons_of_notMem hy, List.filter_cons,
          List.filter_cons, ih, hsame]
        split_ifs <;> rfl

/-- Where values are distinct, what is taken out of both sides is one element. -/
theorem map_filter_ne {f : α → Option β} {l : List α} {m : List β} {y : β}
    (h : l.map f = m.map some) (hm : m.Nodup) (hx : x ∈ l) (hy : f x = some y) :
    (l.filter (· ≠ x)).map f = (m.filter (· ≠ y)).map some := by
  have hnodup : (l.map f).Nodup := h ▸ hm.map fun _ _ => Option.some.inj
  have hinj : ∀ z ∈ l, (z ≠ x ↔ f z ≠ some y) := by
    intro z hz
    constructor
    · intro hne heq
      exact hne (List.inj_on_of_nodup_map hnodup hz hx (heq.trans hy.symm))
    · intro hne heq
      exact hne (heq ▸ hy)
  have hleft : l.filter (· ≠ x) = l.filter ((fun v => decide (v ≠ some y)) ∘ f) := by
    refine List.filter_congr fun z hz => ?_
    simp only [Function.comp, hinj z hz]
  have hright : m.filter (· ≠ y) = m.filter ((fun v => decide (v ≠ some y)) ∘ some) := by
    refine List.filter_congr fun z _ => ?_
    simp
  rw [hleft, hright, ← List.filter_map, ← List.filter_map, h]

end Lists

namespace Registry

variable {r r' : Registry} {i j : IfIndex} {s : Session} {starts : List IfIndex}
  {log : List CaptureTask}

/-- The handle that a port is captured through. -/
def handle? (r : Registry) (i : IfIndex) : Option Nat := (r.capture? i).map Capture.handle

theorem isCapturing_eq_isSome : r.isCapturing i = (r.capture? i).isSome := by
  unfold isCapturing capture?
  cases r.session? i <;> rfl

/-- Captures, captured ports, tickers, kept packets, timing and handles agree, where
`starts` are the ports whose interfaces were opened so far. -/
structure InOrder (starts : List IfIndex) (r : Registry) : Prop where
  distinct : r.Distinct
  upPorts : r.upPorts = starts.dedup.filter r.isCapturing
  started : ∀ i, r.isCapturing i = true → i ∈ starts
  ticking : ∀ i s, r.session? i = some s → s.transmitter.ticker.isSome = s.isCapturing
  cached : ∀ i s, r.session? i = some s → s.transmitter.cached.isSome = true →
    s.isCapturing = true
  timing : ∀ i s, r.session? i = some s → s.transmitter.timing = r.settings.timing
  handles : r.upPorts.map r.handle? = r.backend.openHandles.map some

namespace InOrder

/-- **The captured ports are listed.** -/
theorem mem_upPorts (h : r.InOrder starts) : i ∈ r.upPorts ↔ r.isCapturing i = true := by
  rw [h.upPorts, List.mem_filter, List.mem_dedup]
  exact ⟨And.right, fun hc => ⟨h.started i hc, hc⟩⟩

theorem nodup_upPorts (h : r.InOrder starts) : r.upPorts.Nodup := by
  rw [h.upPorts]
  exact (List.nodup_dedup starts).filter _

/-- **A handle is open exactly while a port is captured through it.** -/
theorem isOpen_iff (h : r.InOrder starts) {handle : Nat} :
    r.backend.isOpen handle = true ↔ ∃ i, r.handle? i = some handle := by
  constructor
  · intro ho
    have hmem : some handle ∈ r.upPorts.map r.handle? := by
      rw [h.handles]
      exact List.mem_map_of_mem (Loopback.mem_openHandles.2 ho)
    obtain ⟨i, -, hi⟩ := List.mem_map.1 hmem
    exact ⟨i, hi⟩
  · rintro ⟨i, hi⟩
    have hcapturing : r.isCapturing i = true := by
      rw [isCapturing_eq_isSome]
      obtain ⟨c, hc, -⟩ := Option.map_eq_some_iff.1 hi
      rw [hc]
      rfl
    have hmem : some handle ∈ r.backend.openHandles.map some := by
      rw [← h.handles, ← hi]
      exact List.mem_map_of_mem (h.mem_upPorts.2 hcapturing)
    exact Loopback.mem_openHandles.1 (by simpa using hmem)

theorem ofSettings (settings : Settings) : (Registry.ofSettings settings).InOrder [] where
  distinct := List.nodup_nil
  upPorts := rfl
  started _ h := by cases h
  ticking _ _ h := by cases h
  cached _ _ h := by cases h
  timing _ _ h := by cases h
  handles := rfl

/-- The same captures, captured ports and open handles; and sessions whose tickers,
packets and timing go with them. -/
theorem of_captures (h : r.InOrder starts) (hd : r'.Distinct)
    (hc : ∀ j, r'.capture? j = r.capture? j) (hu : r'.upPorts = r.upPorts)
    (ho : r'.backend.openHandles = r.backend.openHandles)
    (hs : ∀ j s', r'.session? j = some s' →
      s'.transmitter.ticker.isSome = s'.isCapturing ∧
        (s'.transmitter.cached.isSome = true → s'.isCapturing = true) ∧
        s'.transmitter.timing = r'.settings.timing) : r'.InOrder starts := by
  have hcapturing : r'.isCapturing = r.isCapturing := by
    funext j
    rw [isCapturing_eq_isSome, isCapturing_eq_isSome, hc]
  have hhandle : r'.handle? = r.handle? := by
    funext j
    rw [handle?, handle?, hc]
  exact {
    distinct := hd
    upPorts := by rw [hu, hcapturing, h.upPorts]
    started := hcapturing ▸ h.started
    ticking := fun j s' hj => (hs j s' hj).1
    cached := fun j s' hj => (hs j s' hj).2.1
    timing := fun j s' hj => (hs j s' hj).2.2
    handles := by rw [hu, hhandle, ho, h.handles] }

/-- The same sessions, and the same handles. -/
theorem of_sessions (h : r.InOrder starts) (hs : r'.sessions = r.sessions)
    (ht : r'.settings.timing = r.settings.timing) (hu : r'.upPorts = r.upPorts)
    (hh : r'.backend.handles = r.backend.handles) : r'.InOrder starts := by
  have hsession : ∀ j, r'.session? j = r.session? j := fun j => by rw [session?, hs, session?]
  refine h.of_captures ?_ (fun j => ?_) hu (Loopback.openHandles_congr hh) fun j s' hj => ?_
  · rw [Distinct, indexes, hs]
    exact h.distinct
  · rw [capture?, hsession, capture?]
  · rw [hsession] at hj
    exact ⟨h.ticking j s' hj, h.cached j s' hj, ht ▸ h.timing j s' hj⟩

/-! ### Alterations -/

theorem keep (h : r.InOrder starts) (k : r.Keeps r') : r'.InOrder starts := by
  refine h.of_captures ?_ (fun j => k.capture?) k.upPorts ?_ fun j s' hs' => ?_
  · rw [Distinct, k.indexes]
    exact h.distinct
  · rcases k.backend with hb | ⟨handle, bytes, hb⟩
    · rw [hb]
    · exact Loopback.openHandles_congr (Loopback.handles_of_write hb)
  · obtain ⟨s, hs, hkeep⟩ := k.session j s' hs'
    have hcapturing : s'.isCapturing = s.isCapturing := congrArg Option.isSome hkeep.capture
    refine ⟨?_, fun hcached => ?_, ?_⟩
    · rw [hkeep.ticker, hcapturing]
      exact h.ticking j s hs
    · rw [hcapturing]
      rcases hkeep.cached hcached with hold | hnew
      · exact h.cached j s hs hold
      · exact hnew
    · rw [hkeep.timing, k.timing]
      exact h.timing j s hs

/-- **An interface is opened**: its port comes last. -/
theorem opened (h : r.InOrder starts) {lo' : Loopback} (hs : r.session? i = some s)
    (hdue : r.isDue s = true)
    (hopen : r.backend.openHandle s.port.name r.settings.capture.readTimeout
      Ethernet.captureFilter = .ok (r.backend.handles.length, lo')) :
    ({ r with backend := lo' }.adopt i r.backend.handles.length).InOrder (starts ++ [i]) := by
  have hidle : r.isCapturing i = false := by
    have hnot : s.isCapturing = false := by
      unfold isDue at hdue
      simp only [Bool.and_eq_true, Bool.not_eq_true'] at hdue
      exact hdue.2
    rw [isCapturing, hs]
    exact hnot
  have hsession : ∀ j, ({ r with backend := lo' }.adopt i r.backend.handles.length).session? j =
      if j = i then (r.session? j).map (·.start ⟨r.generation + 1, r.backend.handles.length⟩)
      else r.session? j := fun j => session?_adopt
  have hcapture : ∀ j, ({ r with backend := lo' }.adopt i r.backend.handles.length).capture? j =
      if j = i then some ⟨r.generation + 1, r.backend.handles.length⟩ else r.capture? j := by
    intro j
    have hs' : { r with backend := lo' }.session? i = some s := hs
    exact capture?_adopt hs'
  have hcapturing : ∀ j,
      ({ r with backend := lo' }.adopt i r.backend.handles.length).isCapturing j =
        (r.isCapturing j || j = i) := by
    intro j
    rw [isCapturing_eq_isSome, hcapture, isCapturing_eq_isSome]
    split_ifs with hj <;> simp [hj]
  have hup : ({ r with backend := lo' }.adopt i r.backend.handles.length).upPorts =
      r.upPorts ++ [i] := by
    have hnot : i ∉ r.upPorts := by
      rw [h.mem_upPorts, hidle]
      exact Bool.false_ne_true
    show (if i ∈ r.upPorts then r.upPorts else r.upPorts ++ [i]) = r.upPorts ++ [i]
    rw [if_neg hnot]
  exact {
    distinct := by
      have hindexes : ({ r with backend := lo' }.adopt i r.backend.handles.length).indexes =
          r.indexes := indexes_modify fun _ => rfl
      rw [Distinct, hindexes]
      exact h.distinct
    upPorts := by
      rw [hup, filter_dedup_concat hidle hcapturing, h.upPorts]
    started := by
      intro j hj
      rw [hcapturing, Bool.or_eq_true, decide_eq_true_eq] at hj
      rcases hj with hold | rfl
      · exact List.mem_append_left _ (h.started j hold)
      · exact List.mem_append_right _ (List.mem_singleton_self j)
    ticking := by
      intro j s' hj
      rw [hsession] at hj
      split_ifs at hj
      · obtain ⟨u, -, rfl⟩ := Option.map_eq_some_iff.1 hj
        rfl
      · exact h.ticking j s' hj
    cached := by
      intro j s' hj hcached
      rw [hsession] at hj
      split_ifs at hj
      · obtain ⟨u, -, rfl⟩ := Option.map_eq_some_iff.1 hj
        rfl
      · exact h.cached j s' hj hcached
    timing := by
      intro j s' hj
      rw [hsession] at hj
      split_ifs at hj
      · obtain ⟨u, hu, rfl⟩ := Option.map_eq_some_iff.1 hj
        exact h.timing j u hu
      · exact h.timing j s' hj
    handles := by
      have hold : r.upPorts.map ({ r with backend := lo' }.adopt i
          r.backend.handles.length).handle? = r.upPorts.map r.handle? := by
        refine List.map_congr_left fun j hj => ?_
        have hne : j ≠ i := by
          rintro rfl
          rw [h.mem_upPorts, hidle] at hj
          cases hj
        rw [handle?, hcapture, if_neg hne, handle?]
      have hnew : ({ r with backend := lo' }.adopt i r.backend.handles.length).handle? i =
          some r.backend.handles.length := by
        rw [handle?, hcapture, if_pos rfl]
        rfl
      have hopened : ({ r with backend := lo' }.adopt i
          r.backend.handles.length).backend.openHandles =
          r.backend.openHandles ++ [r.backend.handles.length] :=
        Loopback.openHandles_of_openHandle hopen
      rw [hup, hopened, List.map_append, List.map_append, hold, h.handles, List.map_singleton,
        hnew]
      rfl }

/-- **A port is stopped**: what went with its capture goes with it. -/
theorem stopped (h : r.InOrder starts) (hs : r.session? i = some s) :
    (r.stop i).2.InOrder starts := by
  have hup : (r.stop i).2.upPorts = r.upPorts.filter (· ≠ i) := by
    rw [stop, hs]
    rfl
  exact {
    distinct := by
      rw [Distinct, stop_indexes]
      exact h.distinct
    upPorts := by
      rw [hup, h.upPorts, List.filter_filter]
      refine List.filter_congr fun j _ => ?_
      rw [isCapturing_stop, Bool.and_comm]
    started := by
      intro j hj
      rw [isCapturing_stop, Bool.and_eq_true] at hj
      exact h.started j hj.1
    ticking := by
      intro j s' hj
      rw [session?_stop] at hj
      split_ifs at hj
      · obtain ⟨u, -, rfl⟩ := Option.map_eq_some_iff.1 hj
        rfl
      · exact h.ticking j s' hj
    cached := by
      intro j s' hj hcached
      rw [session?_stop] at hj
      split_ifs at hj
      · obtain ⟨u, -, rfl⟩ := Option.map_eq_some_iff.1 hj
        cases hcached
      · exact h.cached j s' hj hcached
    timing := by
      intro j s' hj
      rw [session?_stop] at hj
      rw [stop_settings]
      split_ifs at hj
      · obtain ⟨u, hu, rfl⟩ := Option.map_eq_some_iff.1 hj
        exact h.timing j u hu
      · exact h.timing j s' hj
    handles := by
      have hothers : (r.upPorts.filter (· ≠ i)).map (r.stop i).2.handle? =
          (r.upPorts.filter (· ≠ i)).map r.handle? := by
        refine List.map_congr_left fun j hj => ?_
        have hne : j ≠ i := by simpa using (List.mem_filter.1 hj).2
        rw [handle?, capture?_stop, if_neg hne, handle?]
      rw [hup, hothers, stop_backend hs]
      cases hc : s.capture with
      | none =>
        have hnot : ∀ j ∈ r.upPorts, j ≠ i := by
          rintro j hj rfl
          rw [h.mem_upPorts, isCapturing, hs] at hj
          simp [Session.isCapturing, hc] at hj
        rw [List.filter_eq_self.2 (by simpa using hnot), h.handles]
        rfl
      | some c =>
        have hhandle : r.handle? i = some c.handle := by
          rw [handle?, capture?, hs]
          simp [hc]
        have hmem : i ∈ r.upPorts := by
          rw [h.mem_upPorts, isCapturing, hs]
          simp [Session.isCapturing, hc]
        rw [Option.elim_some, Loopback.openHandles_close]
        exact map_filter_ne h.handles Loopback.nodup_openHandles hmem hhandle }

theorem added (h : r.InOrder starts) {port : Port} (hs : r.session? port.ifIndex = none) :
    (r.add port).2.InOrder starts := by
  refine h.of_captures ?_ (fun j => capture?_add) ?_ (by rw [add_backend]) fun j s' hj => ?_
  · have hnew : port.ifIndex ∉ r.indexes := session?_eq_none_iff.1 hs
    rw [Distinct, indexes_add hs]
    exact List.nodup_append.2 ⟨h.distinct, List.nodup_singleton _, by
      rintro k hk l hl rfl
      exact hnew (List.mem_singleton.1 hl ▸ hk)⟩
  · rw [add, hs]
  · rw [session?_add hs] at hj
    rw [add_settings]
    split_ifs at hj
    · obtain rfl := Option.some.inj hj
      refine ⟨rfl, fun hcached => ?_, rfl⟩
      cases hcached
    · exact ⟨h.ticking j s' hj, h.cached j s' hj, h.timing j s' hj⟩

/-- A port that is not captured is forgotten without a trace. -/
theorem dropped (h : r.InOrder starts) (hs : r.session? i = some s) (hc : s.capture = none) :
    { r with sessions := r.sessions.filter (·.port.ifIndex ≠ i) }.InOrder starts := by
  refine h.of_captures ?_ (fun j => capture?_drop hs hc) rfl rfl fun j s' hj => ?_
  · have hindexes : { r with sessions := r.sessions.filter (·.port.ifIndex ≠ i) }.indexes =
        r.indexes.filter (· ≠ i) := by
      simp only [indexes, List.filter_map]
      rfl
    rw [Distinct, hindexes]
    exact h.distinct.filter _
  · rw [session?_drop] at hj
    split_ifs at hj
    exact ⟨h.ticking j s' hj, h.cached j s' hj, h.timing j s' hj⟩

/-- **Other timing**: every ticker that runs is replaced, and no packet is kept. -/
theorem retimed (h : r.InOrder starts) (timing : Timing) : (r.retime timing).InOrder starts := by
  refine h.of_captures ?_ (fun j => capture?_retime) rfl rfl fun j s' hj => ?_
  · rw [Distinct, indexes_retime]
    exact h.distinct
  · rw [session?_retime] at hj
    obtain ⟨s, hs, rfl⟩ := Option.map_eq_some_iff.1 hj
    have hticking := h.ticking j s hs
    have hcapturing : (s.retime timing).isCapturing = s.isCapturing := rfl
    rw [hcapturing]
    simp only [Session.retime]
    cases hc : s.isCapturing with
    | true => exact ⟨rfl, fun _ => rfl, rfl⟩
    | false =>
      rw [hc] at hticking
      refine ⟨hticking, fun hcached => ?_, rfl⟩
      cases hcached

/-- **Every alteration keeps captures and what goes with them in order**, and enters the
ports whose interfaces it opens. -/
theorem alters (h : r.InOrder starts) (a : r.Alters log r') :
    r'.InOrder (starts ++ log.map CaptureTask.ifIndex) := by
  induction a generalizing starts with
  | keep k => simpa using h.keep k
  | opened hs hdue hopen => exact h.opened hs hdue hopen
  | stopped hs => simpa using h.stopped hs
  | added hs => simpa using h.added hs
  | dropped hs hc => simpa using h.dropped hs hc
  | retimed timing => simpa using h.retimed timing
  | trans a a' ih ih' =>
    rw [List.map_append, ← List.append_assoc]
    exact ih' (ih h)

end InOrder

end Registry
end Lldp
