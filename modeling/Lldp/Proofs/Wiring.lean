/-
# Names, handles and links

While no link is cut off, a name leads to one link and a handle to the link of its
interface (`Loopback.Wired`).  So it makes no difference whether a link is reached by name
or through a handle, and changing the link of a name changes every link of that name and
none else (`onLink_cases`).

Whether an interface can be opened, and whether writes on it fail, is then a matter of its
name alone.  Nothing that the owner of a registry does changes either
(`Registry.Alters.fails`), and a frame for a captured port is written exactly if writes on
its interface do not fail (`Registry.write_cases`).
-/

import Lldp.Proofs.Incidents
import Lldp.Proofs.Registry.Order

namespace Lldp

/-- Which opens fail after others have done something with a link. -/
def LinkUse.onOpens (fails : String → Bool) : LinkUse → String → Bool
  | .failOpen name fail => Function.update fails name fail
  | _ => fails

/-- Which writes fail then. -/
def LinkUse.onWrites (fails : String → Bool) : LinkUse → String → Bool
  | .failWrite name fail => Function.update fails name fail
  | _ => fails

namespace Loopback

variable {lo lo' : Loopback} {name other filter : String} {patience handle link now : Nat}
  {bytes : Octets} {change : Link → Link} {l : Link} {hd : Handle}

/-- What a link is known by: its name, and whether it is cut off. -/
def labels (lo : Loopback) : List (String × Bool) := lo.links.map fun l => (l.name, l.gone)

/-- Names lead to links, and handles lead to the links of their interfaces. -/
structure Wired (lo : Loopback) : Prop where
  names : (lo.links.map Link.name).Nodup
  present : ∀ l ∈ lo.links, l.gone = false
  reach : ∀ hd ∈ lo.handles, ∃ l, lo.links[hd.link]? = some l ∧ l.name = hd.interface

/-- Whether opening an interface fails. -/
def failsOpen (lo : Loopback) (name : String) : Bool := name ∈ lo.failingOpens

/-- Whether writing on the link that a name leads to fails. -/
def failsWrite (lo : Loopback) (name : String) : Bool := (lo.link? name).any Link.failWrites

/-- **A name leads to the link that has it.** -/
theorem Wired.link?_eq_some_iff (h : lo.Wired) :
    lo.link? name = some l ↔ l ∈ lo.links ∧ l.name = name := by
  constructor
  · intro hl
    have hfound := List.find?_some hl
    simp only [Bool.and_eq_true, decide_eq_true_eq] at hfound
    exact ⟨List.mem_of_find?_eq_some hl, hfound.1⟩
  · rintro ⟨hl, rfl⟩
    cases hfind : lo.link? l.name with
    | some m =>
      have hfound := List.find?_some hfind
      simp only [Bool.and_eq_true, decide_eq_true_eq] at hfound
      rw [List.inj_on_of_nodup_map h.names (List.mem_of_find?_eq_some hfind) hl hfound.1]
    | none =>
      have hnot := List.find?_eq_none.1 hfind l hl
      simp [h.present l hl] at hnot

theorem Wired.link?_eq_none_iff (h : lo.Wired) :
    lo.link? name = none ↔ ∀ l ∈ lo.links, l.name ≠ name := by
  rw [Option.eq_none_iff_forall_ne_some]
  constructor
  · intro hnone l hl heq
    exact hnone l (h.link?_eq_some_iff.2 ⟨hl, heq⟩)
  · intro hnone l hl
    obtain ⟨hmem, heq⟩ := h.link?_eq_some_iff.1 hl
    exact hnone l hmem heq

/-- **A handle leads where its name does.** -/
theorem Wired.link?_interface (h : lo.Wired) (hhd : hd ∈ lo.handles) :
    lo.links[hd.link]? = lo.link? hd.interface := by
  obtain ⟨l, hl, hname⟩ := h.reach hd hhd
  rw [hl, eq_comm]
  exact h.link?_eq_some_iff.2 ⟨List.mem_of_getElem? hl, hname⟩

/-- Where links have distinct names, changing one by its place is changing it by its name. -/
theorem modify_eq_map {links : List Link} (h : (links.map Link.name).Nodup)
    (hl : links[link]? = some l) :
    links.modify link change = links.map fun m => if m.name = l.name then change m else m := by
  refine List.ext_getElem? fun k => ?_
  rw [List.getElem?_modify, List.getElem?_map]
  cases hm : links[k]? with
  | none => rfl
  | some m =>
    have hiff : m.name = l.name ↔ link = k := by
      constructor
      · intro heq
        have hm' : (links.map Link.name)[k]? = some l.name := by
          rw [List.getElem?_map, hm, Option.map_some, heq]
        have hl' : (links.map Link.name)[link]? = some l.name := by
          rw [List.getElem?_map, hl, Option.map_some]
        obtain ⟨hk, hname⟩ := List.getElem?_eq_some_iff.1 hm'
        obtain ⟨hlink, hname'⟩ := List.getElem?_eq_some_iff.1 hl'
        exact (List.Nodup.getElem_inj_iff h).1 (hname'.trans hname.symm)
      · rintro rfl
        rw [Option.some.inj (hm.symm.trans hl)]
    simp only [Option.map_eq_map, Option.map_some, hiff]

/-- **Changing the link of a name** changes the link that has the name; if none has it, a
new one. -/
theorem Wired.onLink_cases (h : lo.Wired) (name : String) (change : Link → Link) :
    (∃ k l, lo.links[k]? = some l ∧ l.name = name ∧ lo.onLink name change =
        (k, { lo with links := lo.links.map fun m => if m.name = name then change m else m })) ∨
      (∀ l ∈ lo.links, l.name ≠ name) ∧ lo.onLink name change =
        (lo.links.length, { lo with links := lo.links ++ [change { name }] }) := by
  unfold onLink
  cases hfind : lo.find? name with
  | some k =>
    obtain ⟨hk, hfound, -⟩ := List.findIdx?_eq_some_iff_getElem.1 hfind
    simp only [Bool.and_eq_true, decide_eq_true_eq] at hfound
    have hl : lo.links[k]? = some lo.links[k] := List.getElem?_eq_getElem hk
    refine Or.inl ⟨k, lo.links[k], hl, hfound.1, ?_⟩
    dsimp only
    rw [modify_eq_map h.names hl, hfound.1]
  | none =>
    refine Or.inr ⟨fun l hl heq => ?_, rfl⟩
    have hnot := List.findIdx?_eq_none_iff.1 hfind l hl
    simp [heq, h.present l hl] at hnot

/-- Labels and the reach of handles are all that matters. -/
theorem Wired.congr (h : lo.Wired) (hl : lo'.labels = lo.labels)
    (hh : ∀ hd' ∈ lo'.handles, ∃ hd ∈ lo.handles,
      hd'.link = hd.link ∧ hd'.interface = hd.interface) : lo'.Wired where
  names := by
    have hnames : lo'.links.map Link.name = lo.links.map Link.name := by
      have := congrArg (List.map Prod.fst) hl
      simpa [labels, Function.comp_def] using this
    rw [hnames]
    exact h.names
  present l hmem := by
    have hlabel : (l.name, l.gone) ∈ lo.labels := hl ▸ List.mem_map_of_mem hmem
    obtain ⟨m, hm, heq⟩ := List.mem_map.1 hlabel
    rw [← (Prod.mk.inj heq).2]
    exact h.present m hm
  reach hd' hhd' := by
    obtain ⟨hd, hhd, hlink, hinterface⟩ := hh hd' hhd'
    obtain ⟨l, hat, hname⟩ := h.reach hd hhd
    have hlabel : lo'.labels[hd'.link]? = some (l.name, l.gone) := by
      rw [hl, hlink, labels, List.getElem?_map, hat]
      rfl
    rw [labels, List.getElem?_map] at hlabel
    obtain ⟨l', hat', heq⟩ := Option.map_eq_some_iff.1 hlabel
    exact ⟨l', hat', by rw [(Prod.mk.inj heq).1, hname, hinterface]⟩

theorem Wired.of_handles (h : lo.Wired) (hl : lo'.labels = lo.labels)
    (hh : lo'.handles = lo.handles) : lo'.Wired :=
  h.congr hl fun hd hhd => ⟨hd, hh ▸ hhd, rfl, rfl⟩

theorem labels_modify (hchange : ∀ l, (change l).name = l.name ∧ (change l).gone = l.gone) :
    { lo with links := lo.links.modify link change }.labels = lo.labels := by
  refine List.ext_getElem? fun k => ?_
  simp only [labels, List.getElem?_map, List.getElem?_modify]
  cases lo.links[k]? with
  | none => rfl
  | some l =>
    simp only [Option.map_eq_map, Option.map_some]
    split_ifs
    · rw [(hchange l).1, (hchange l).2]
    · rfl

/-- **Links come into being wired.** -/
theorem Wired.onLink (h : lo.Wired)
    (hchange : ∀ l, (change l).name = l.name ∧ (change l).gone = l.gone) :
    (lo.onLink name change).2.Wired := by
  rcases h.onLink_cases name change with ⟨k, l, -, -, heq⟩ | ⟨hnew, heq⟩
  · rw [heq]
    refine h.of_handles ?_ rfl
    simp only [labels, List.map_map]
    refine List.map_congr_left fun l _ => ?_
    simp only [Function.comp]
    split_ifs
    · rw [(hchange l).1, (hchange l).2]
    · rfl
  · rw [heq]
    refine ⟨?_, ?_, ?_⟩
    · rw [List.map_append, List.map_singleton, (hchange _).1]
      refine List.nodup_append.2 ⟨h.names, List.nodup_singleton _, ?_⟩
      rintro n hn m hm rfl
      obtain ⟨l, hl, hname⟩ := List.mem_map.1 hn
      exact hnew l hl (hname.trans (List.mem_singleton.1 hm))
    · intro l hl
      rcases List.mem_append.1 hl with hold | hlast
      · exact h.present l hold
      · rw [List.mem_singleton.1 hlast]
        exact (hchange _).2
    · intro hd hhd
      obtain ⟨l, hat, hname⟩ := h.reach hd hhd
      refine ⟨l, ?_, hname⟩
      rw [List.getElem?_append_left (List.getElem?_eq_some_iff.1 hat).1]
      exact hat

theorem of_openHandle (h : lo.openHandle name patience filter = .ok (handle, lo')) :
    let opened := lo.onLink name fun l => { l with opens := l.opens + 1, filter := some filter }
    lo' = { opened.2 with
      handles := opened.2.handles ++ [{ link := opened.1, interface := name, patience }] } := by
  unfold openHandle at h
  split_ifs at h
  exact (Prod.mk.inj (Except.ok.inj h)).2.symm

/-- **A handle that is opened leads to the link of its interface.** -/
theorem Wired.openHandle (h : lo.Wired)
    (hopen : lo.openHandle name patience filter = .ok (handle, lo')) : lo'.Wired := by
  obtain rfl := of_openHandle hopen
  have hlink : (lo.onLink name fun l =>
      { l with opens := l.opens + 1, filter := some filter }).2.Wired :=
    h.onLink fun l => ⟨rfl, rfl⟩
  refine ⟨hlink.names, hlink.present, fun hd hhd => ?_⟩
  rcases List.mem_append.1 hhd with hold | hnew
  · exact hlink.reach hd hold
  · rw [List.mem_singleton.1 hnew]
    rcases h.onLink_cases name fun l => { l with opens := l.opens + 1, filter := some filter }
      with ⟨k, l, hl, hname, heq⟩ | ⟨-, heq⟩
    · rw [heq]
      refine ⟨{ l with opens := l.opens + 1, filter := some filter }, ?_, hname⟩
      rw [List.getElem?_map, hl, Option.map_some, if_pos hname]
    · rw [heq]
      exact ⟨_, List.getElem?_concat_length .., rfl⟩

theorem Wired.close (h : lo.Wired) : (lo.close handle).Wired := by
  refine h.congr rfl fun hd' hhd' => ?_
  obtain ⟨k, hk⟩ := List.mem_iff_getElem?.1 hhd'
  rw [Loopback.close, List.getElem?_modify] at hk
  obtain ⟨hd, hhd, rfl⟩ := Option.map_eq_some_iff.1 hk
  refine ⟨hd, List.mem_of_getElem? hhd, ?_⟩
  split_ifs <;> exact ⟨rfl, rfl⟩

theorem Wired.write (h : lo.Wired) (hw : lo.write handle bytes = .ok lo') : lo'.Wired := by
  refine h.of_handles ?_ (handles_of_write hw)
  unfold Loopback.write at hw
  split at hw
  · cases hw
  · split_ifs at hw
    obtain rfl := Except.ok.inj hw
    exact labels_modify fun l => ⟨rfl, rfl⟩

theorem Wired.use (h : lo.Wired) (use : LinkUse) : (lo.use use).Wired := by
  cases use with
  | inject name frames => exact h.onLink fun l => ⟨rfl, rfl⟩
  | failOpen name fail => exact h.of_handles rfl rfl
  | failWrite name fail => exact h.onLink fun l => ⟨rfl, rfl⟩

/-! ### What fails -/

/-- **Changing the link of a name** changes no other in whether writes fail. -/
theorem Wired.failsWrite_onLink (h : lo.Wired) (name other : String) {change : Link → Link}
    (hname : ∀ l, (change l).name = l.name) (hgone : ∀ l, (change l).gone = l.gone) :
    (lo.onLink name change).2.failsWrite other =
      if other = name then (change ((lo.link? name).getD { name })).failWrites
      else lo.failsWrite other := by
  have hwired : (lo.onLink name change).2.Wired := h.onLink fun l => ⟨hname l, hgone l⟩
  rcases h.onLink_cases name change with ⟨k, l, hl, rfl, heq⟩ | ⟨hnew, heq⟩
  · have hmap : (lo.onLink l.name change).2.link? other =
        (lo.link? other).map fun m => if m.name = l.name then change m else m := by
      rw [heq, link?, List.find?_map]
      congr 2
      funext m
      simp only [Function.comp]
      split_ifs
      · rw [hname, hgone]
      · rfl
    have hfound : lo.link? l.name = some l :=
      h.link?_eq_some_iff.2 ⟨List.mem_of_getElem? hl, rfl⟩
    rw [failsWrite, hmap]
    split_ifs with hother
    · rw [hother, hfound, Option.map_some, if_pos rfl]
      rfl
    · cases hlink : lo.link? other with
      | none => rw [failsWrite, hlink, Option.map_none]
      | some m =>
        have hm := (h.link?_eq_some_iff.1 hlink).2
        rw [failsWrite, hlink, Option.map_some, if_neg (hm ▸ hother)]
  · have hnone : lo.link? name = none := h.link?_eq_none_iff.2 hnew
    rw [hnone, Option.getD_none]
    split_ifs with hother
    · have hfound : (lo.onLink name change).2.link? other = some (change { name }) := by
        refine hwired.link?_eq_some_iff.2 ⟨?_, (hname _).trans hother.symm⟩
        rw [heq]
        exact List.mem_append_right _ (List.mem_singleton_self _)
      rw [failsWrite, hfound]
      rfl
    · have hsame : (lo.onLink name change).2.link? other = lo.link? other := by
        rw [heq, link?, List.find?_append, List.find?_singleton, hname, if_neg, Option.or_none,
          link?]
        simp [Ne.symm hother]
      rw [failsWrite, hsame, failsWrite]

/-- Opening a handle makes no write fail. -/
theorem Wired.failsWrite_openHandle (h : lo.Wired)
    (hopen : lo.openHandle name patience filter = .ok (handle, lo')) :
    lo'.failsWrite = lo.failsWrite := by
  obtain rfl := of_openHandle hopen
  funext other
  refine Eq.trans (h.failsWrite_onLink name other (fun _ => rfl) fun _ => rfl) ?_
  split_ifs with hother
  · rw [hother, failsWrite]
    cases lo.link? name <;> rfl
  · rfl

/-- Nor does a write. -/
theorem failsWrite_of_write (hw : lo.write handle bytes = .ok lo') :
    lo'.failsWrite = lo.failsWrite := by
  unfold write at hw
  split at hw
  · cases hw
  · split_ifs at hw
    obtain rfl := Except.ok.inj hw
    funext name
    have hrest : ∀ (links : List Link) (k : Nat),
        ((links.modify k fun l => { l with sent := l.sent ++ [bytes] }).find? fun l =>
          l.name = name && !l.gone).any Link.failWrites =
        (links.find? fun l => l.name = name && !l.gone).any Link.failWrites := by
      intro links
      induction links with
      | nil => intro k; cases k <;> rfl
      | cons m links ih =>
        intro k
        cases k with
        | zero =>
          rw [List.modify_zero_cons, List.find?_cons, List.find?_cons]
          dsimp only
          cases decide (m.name = name) && !m.gone <;> rfl
        | succ k =>
          rw [List.modify_succ_cons, List.find?_cons, List.find?_cons]
          split
          · rfl
          · exact ih k
    exact hrest lo.links _

theorem failingOpens_of_write (hw : lo.write handle bytes = .ok lo') :
    lo'.failingOpens = lo.failingOpens := by
  unfold write at hw
  split at hw
  · cases hw
  · split_ifs at hw
    obtain rfl := Except.ok.inj hw
    rfl

/-- **What others do with links** makes opens fail as it says. -/
theorem failsOpen_use (use : LinkUse) : (lo.use use).failsOpen = use.onOpens lo.failsOpen := by
  funext other
  cases use with
  | inject name frames =>
    rw [failsOpen, Loopback.use, inject, failingOpens_onLink]
    rfl
  | failOpen name fail =>
    rw [LinkUse.onOpens, Function.update_apply, failsOpen, Loopback.use, setFailOpen]
    by_cases hother : other = name
    · subst hother
      cases fail <;> simp
    · cases fail <;> simp [hother, failsOpen]
  | failWrite name fail =>
    rw [failsOpen, Loopback.use, setFailWrite, failingOpens_onLink]
    rfl

/-- **And it makes writes fail as it says.** -/
theorem Wired.failsWrite_use (h : lo.Wired) (use : LinkUse) :
    (lo.use use).failsWrite = use.onWrites lo.failsWrite := by
  funext other
  cases use with
  | inject name frames =>
    refine Eq.trans (h.failsWrite_onLink name other (fun _ => rfl) fun _ => rfl) ?_
    show _ = lo.failsWrite other
    split_ifs with hother
    · rw [hother, failsWrite]
      cases lo.link? name <;> rfl
    · rfl
  | failOpen name fail => rfl
  | failWrite name fail =>
    rw [LinkUse.onWrites, Function.update_apply]
    exact h.failsWrite_onLink name other (fun _ => rfl) fun _ => rfl

end Loopback

namespace Registry

variable {r r' : Registry} {i : IfIndex} {s : Session} {c : Capture} {log : List CaptureTask}
  {starts : List IfIndex}

/-- The links are wired, and a port is captured through a handle of its own interface. -/
structure Wired (r : Registry) : Prop where
  backend : r.backend.Wired
  captured : ∀ i s c, r.session? i = some s → s.capture = some c →
    ∃ hd, r.backend.handles[c.handle]? = some hd ∧ hd.interface = s.port.name

theorem Wired.ofSettings (settings : Settings) : (Registry.ofSettings settings).Wired where
  backend := ⟨List.nodup_nil, fun _ h => absurd h List.not_mem_nil,
    fun _ h => absurd h List.not_mem_nil⟩
  captured _ _ _ h := by cases h

/-- Ports keep their captures or lose them, and handles lead to the interfaces they did. -/
theorem Wired.of_captures (h : r.Wired) (hb : r'.backend.Wired)
    (hhandles : ∀ (k : Nat) hd, r.backend.handles[k]? = some hd →
      ∃ hd', r'.backend.handles[k]? = some hd' ∧ hd'.interface = hd.interface)
    (hs : ∀ j s' c, r'.session? j = some s' → s'.capture = some c →
      ∃ s, r.session? j = some s ∧ s.port = s'.port ∧ s.capture = some c) : r'.Wired := by
  refine ⟨hb, fun j s' c hj hc => ?_⟩
  obtain ⟨s, hsession, hport, hcapture⟩ := hs j s' c hj hc
  obtain ⟨hd, hhd, hname⟩ := h.captured j s c hsession hcapture
  obtain ⟨hd', hhd', hsame⟩ := hhandles c.handle hd hhd
  exact ⟨hd', hhd', by rw [hsame, hname, hport]⟩

/-- **Every alteration leaves names, handles and links wired.** -/
theorem Wired.alters (h : r.Wired) (a : r.Alters log r') : r'.Wired := by
  induction a with
  | @keep r r' k =>
    have hwired : r'.backend.Wired ∧ r'.backend.handles = r.backend.handles := by
      rcases k.backend with hb | ⟨handle, bytes, hw⟩
      · rw [hb]
        exact ⟨h.backend, rfl⟩
      · exact ⟨h.backend.write hw, Loopback.handles_of_write hw⟩
    refine h.of_captures hwired.1 (fun k hd hhd => ⟨hd, hwired.2 ▸ hhd, rfl⟩) fun j s' c hj hc => ?_
    obtain ⟨s, hs, hkeep⟩ := k.session j s' hj
    exact ⟨s, hs, hkeep.port.symm, hkeep.capture ▸ hc⟩
  | @opened r i s lo' hs hdue hopen =>
    obtain ⟨-, link, hhandles⟩ := Loopback.handles_of_openHandle hopen
    refine ⟨h.backend.openHandle hopen, fun j s' c hj hc => ?_⟩
    show ∃ hd, lo'.handles[c.handle]? = some hd ∧ _
    have hsession : ({ r with backend := lo' }.adopt i r.backend.handles.length).session? j =
        if j = i then (r.session? j).map (·.start ⟨r.generation + 1, r.backend.handles.length⟩)
        else r.session? j := session?_adopt
    rw [hsession] at hj
    split_ifs at hj with hji
    · subst hji
      obtain rfl : s.start _ = s' := Option.some.inj (by rw [← hj, hs]; rfl)
      obtain rfl := Option.some.inj hc
      rw [hhandles]
      exact ⟨_, List.getElem?_concat_length .., rfl⟩
    · obtain ⟨hd, hhd, hname⟩ := h.captured j s' c hj hc
      refine ⟨hd, ?_, hname⟩
      rw [hhandles, List.getElem?_append_left (List.getElem?_eq_some_iff.1 hhd).1]
      exact hhd
  | @stopped r i s hs =>
    have hwired : (r.stop i).2.backend.Wired ∧ ∀ (k : Nat) hd, r.backend.handles[k]? = some hd →
        ∃ hd', (r.stop i).2.backend.handles[k]? = some hd' ∧ hd'.interface = hd.interface := by
      rw [stop_backend hs]
      cases s.capture with
      | none => exact ⟨h.backend, fun k hd hhd => ⟨hd, hhd, rfl⟩⟩
      | some c =>
        refine ⟨h.backend.close, fun k hd hhd => ?_⟩
        rw [Option.elim_some, Loopback.close, List.getElem?_modify, hhd]
        refine ⟨_, rfl, ?_⟩
        split_ifs <;> rfl
    refine h.of_captures hwired.1 hwired.2 fun j s' c hj hc => ?_
    rw [session?_stop] at hj
    split_ifs at hj
    · obtain ⟨u, -, rfl⟩ := Option.map_eq_some_iff.1 hj
      cases hc
    · exact ⟨s', hj, rfl, hc⟩
  | @added r port hs =>
    refine h.of_captures (by rw [add_backend]; exact h.backend)
      (fun k hd hhd => ⟨hd, by rw [add_backend]; exact hhd, rfl⟩) fun j s' c hj hc => ?_
    rw [session?_add hs] at hj
    split_ifs at hj
    · obtain rfl := Option.some.inj hj
      cases hc
    · exact ⟨s', hj, rfl, hc⟩
  | @dropped r i s hs hc =>
    refine h.of_captures h.backend (fun k hd hhd => ⟨hd, hhd, rfl⟩) fun j s' c hj hc => ?_
    rw [session?_drop] at hj
    split_ifs at hj
    exact ⟨s', hj, rfl, hc⟩
  | @retimed r timing =>
    refine h.of_captures h.backend (fun k hd hhd => ⟨hd, hhd, rfl⟩) fun j s' c hj hc => ?_
    rw [session?_retime] at hj
    obtain ⟨s, hs, rfl⟩ := Option.map_eq_some_iff.1 hj
    exact ⟨s, hs, rfl, hc⟩
  | trans a a' ih ih' => exact ih' (ih h)

/-- **No alteration makes an open or a write fail**, or succeed, that did not. -/
theorem Wired.fails (h : r.Wired) (a : r.Alters log r') :
    r'.backend.failsOpen = r.backend.failsOpen ∧
      r'.backend.failsWrite = r.backend.failsWrite := by
  induction a with
  | keep k =>
    rcases k.backend with hb | ⟨handle, bytes, hw⟩
    · rw [hb]
      exact ⟨rfl, rfl⟩
    · refine ⟨?_, Loopback.failsWrite_of_write hw⟩
      funext name
      rw [Loopback.failsOpen, Loopback.failingOpens_of_write hw, Loopback.failsOpen]
  | opened hs hdue hopen =>
    refine ⟨?_, h.backend.failsWrite_openHandle hopen⟩
    funext name
    show decide (name ∈ _) = decide (name ∈ _)
    rw [← Loopback.failingOpens_of_openHandle hopen]
    rfl
  | @stopped r i s hs =>
    rw [stop_backend hs]
    cases s.capture <;> exact ⟨rfl, rfl⟩
  | added hs =>
    rw [add_backend]
    exact ⟨rfl, rfl⟩
  | dropped hs hc => exact ⟨rfl, rfl⟩
  | retimed timing => exact ⟨rfl, rfl⟩
  | trans a a' ih ih' =>
    obtain ⟨hopen, hwrite⟩ := ih h
    obtain ⟨hopen', hwrite'⟩ := ih' (h.alters a)
    exact ⟨hopen'.trans hopen, hwrite'.trans hwrite⟩

/-- **A frame for a captured port is written** unless writes on its interface fail. -/
theorem Wired.write_cases (h : r.Wired) (horder : r.InOrder starts) (hs : r.session? i = some s)
    (hc : s.capture = some c) (bytes : Octets) :
    (r.backend.failsWrite s.port.name = true ∧ ∃ e, r.backend.write c.handle bytes = .error e) ∨
      r.backend.failsWrite s.port.name = false ∧ ∃ lo, r.backend.write c.handle bytes = .ok lo := by
  obtain ⟨hd, hhd, hname⟩ := h.captured i s c hs hc
  have hopen : hd.closed = false := by
    have hisOpen : r.backend.isOpen c.handle = true := by
      refine horder.isOpen_iff.2 ⟨i, ?_⟩
      rw [handle?, capture?, hs, Option.bind_some, hc]
      rfl
    rw [Loopback.isOpen, hhd] at hisOpen
    simpa using hisOpen
  obtain ⟨l, hl, -⟩ := h.backend.reach hd (List.mem_of_getElem? hhd)
  have hlink : r.backend.link? s.port.name = some l := by
    rw [← hname, ← h.backend.link?_interface (List.mem_of_getElem? hhd), hl]
  have haccess : r.backend.access c.handle = .ok (hd, l) := by
    simp [Loopback.access, hhd, hopen, hl]
  have hfails : r.backend.failsWrite s.port.name = l.failWrites := by
    rw [Loopback.failsWrite, hlink]
    rfl
  simp only [hfails, Loopback.write, haccess]
  cases hw : l.failWrites with
  | true => exact Or.inl ⟨rfl, _, rfl⟩
  | false => exact Or.inr ⟨rfl, _, rfl⟩

end Registry
end Lldp
