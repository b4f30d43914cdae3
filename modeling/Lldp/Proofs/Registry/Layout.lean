/-
# How ports are laid out

What start-up settles of a port is whether it is enabled, the state of its link and its
capture (`Layout`); and of a registry, the layouts of its ports in their order, the list of
captured ports, and what was opened for them.  Packets, requests to transmit, alarms,
tickers and the tasks that read captures change none of this (`Registry.SameLayout`).

`Registry.LaidOut` describes a registry by what has been said of its ports so far: which
were registered, and disabled or not, and which of the enabled ones were reported up, in
which order.  If the protocol runs at all, the ports that were reported up are captured,
each through the handle that was opened in its turn.  Registering one more port, disabling
it and reporting an enabled one up succeed, and lead from one such description to the next
(`LaidOut.add`, `LaidOut.disable`, `LaidOut.raise`).
-/

import Lldp.Proofs.Registry.Effects
import Lldp.Proofs.Registry.Reporting
import Lldp.Proofs.Station.Order
import Lldp.Proofs.Wiring

namespace Lldp

/-- What start-up settles of a port. -/
structure Layout where
  port : Port
  enabled : Bool := true
  link : LinkState := .down
  capture : Option Capture := none
deriving DecidableEq

def Session.layout (s : Session) : Layout := ⟨s.port, s.enabled, s.link, s.capture⟩

namespace Registry

variable {r r' r'' : Registry} {i : IfIndex} {l : Layout} {now : Nat}

/-- The layouts of the ports, in their order. -/
def layouts (r : Registry) : List Layout := r.sessions.map Session.layout

/-- A layout has the index of its port. -/
theorem indexes_eq_layouts : r.indexes = r.layouts.map (·.port.ifIndex) := by
  rw [indexes, layouts, List.map_map]
  rfl

/-- A port that is laid out is found under its index. -/
theorem session?_of_layout (h : r.Distinct) (hl : l ∈ r.layouts) :
    ∃ s, r.session? l.port.ifIndex = some s ∧ s.layout = l := by
  obtain ⟨s, hs, rfl⟩ := List.mem_map.1 hl
  exact ⟨s, session?_of_mem h hs, rfl⟩

/-- **To change a port is to change its layout.** -/
theorem layouts_modify {change : Session → Session} {f : Layout → Layout}
    (h : ∀ s, (change s).layout = f s.layout) :
    (r.modify i change).layouts = r.layouts.map fun l => if l.port.ifIndex = i then f l else l := by
  rw [layouts, layouts, modify, List.map_map, List.map_map]
  refine List.map_congr_left fun s _ => ?_
  have hport : s.layout.port = s.port := rfl
  simp only [Function.comp, hport]
  split_ifs
  · exact h s
  · rfl

/-- Where indexes are distinct, to change the last port is to change no other. -/
theorem layouts_modify_last {change : Session → Session} {f : Layout → Layout}
    {before : List Layout} (hd : r.Distinct) (hl : r.layouts = before ++ [l])
    (h : ∀ s, (change s).layout = f s.layout) :
    (r.modify l.port.ifIndex change).layouts = before ++ [f l] := by
  rw [Distinct, indexes_eq_layouts, hl, List.map_append, List.nodup_append] at hd
  rw [layouts_modify h, hl, List.map_append, List.map_singleton, if_pos rfl]
  congr 1
  refine (List.map_congr_left fun m hm => if_neg fun heq => ?_).trans (List.map_id _)
  exact hd.2.2 _ (List.mem_map_of_mem hm) _ (List.mem_singleton_self _) heq

/-! ### What leaves ports as they are laid out -/

/-- Every port is laid out as before, the same ports are captured, and nothing is opened.
Interfaces can still be opened if all could be, and the wheel does not break. -/
structure SameLayout (r r' : Registry) : Prop where
  enabled : r'.settings.enabled = r.settings.enabled
  layouts : r'.layouts = r.layouts
  upPorts : r'.upPorts = r.upPorts
  generation : r'.generation = r.generation
  handles : r'.backend.handles.map Handle.interface = r.backend.handles.map Handle.interface
  failing : r.backend.failingOpens = [] → r'.backend.failingOpens = []
  whole : r.alarms.wheel.broken = false → r'.alarms.wheel.broken = false

namespace SameLayout

/-- Where nothing happens, ports stay as they are laid out. -/
theorem refl (r : Registry) : SameLayout r r := ⟨rfl, rfl, rfl, rfl, rfl, id, id⟩

/-- Two changes that leave layouts alone do so together. -/
theorem trans (h : SameLayout r r') (h' : SameLayout r' r'') : SameLayout r r'' where
  enabled := h'.enabled.trans h.enabled
  layouts := h'.layouts.trans h.layouts
  upPorts := h'.upPorts.trans h.upPorts
  generation := h'.generation.trans h.generation
  handles := h'.handles.trans h.handles
  failing hf := h'.failing (h.failing hf)
  whole hw := h'.whole (h.whole hw)

/-- A session is changed in what is not settled by start-up. -/
theorem modify {change : Session → Session} (h : ∀ s, (change s).layout = s.layout) :
    SameLayout r (r.modify i change) := by
  refine ⟨rfl, ?_, rfl, rfl, rfl, id, id⟩
  rw [layouts_modify (f := id) h]
  exact (List.map_congr_left fun l _ => ite_self l).trans (List.map_id _)

/-- Tasks, requests to transmit and links are none of it, as long as the handles lead to the
same interfaces. -/
theorem links {lo : Loopback} {tasks : List CaptureTask} {triggers : Triggers}
    (hh : lo.handles = r.backend.handles) (hf : lo.failingOpens = r.backend.failingOpens) :
    SameLayout r { r with backend := lo, tasks, triggers } :=
  ⟨rfl, rfl, rfl, rfl, congrArg (List.map Handle.interface) hh, hf.trans, id⟩

/-- Alarms are no part of a layout, as long as the wheel is whole. -/
theorem alarms {q : Expiry} (h : r.alarms.wheel.broken = false → q.wheel.broken = false) :
    SameLayout r { r with alarms := q } :=
  ⟨rfl, rfl, rfl, rfl, rfl, id, h⟩

end SameLayout

end Registry

/-! ### The wheel -/

namespace Wheel

variable {w : Wheel} {key deadline time now count : Nat}

/-- A turn of the wheel does not break it. -/
@[simp] theorem broken_turnOnce : (w.turnOnce time).broken = w.broken := by
  unfold turnOnce
  split
  · rfl
  · split_ifs <;> rfl

/-- Nor do any number of turns. -/
@[simp] theorem broken_turn : (w.turn now).broken = w.broken := by
  have hall : ∀ count (w : Wheel), (turnUpTo now count w).broken = w.broken := by
    intro count
    induction count with
    | zero => exact fun _ => rfl
    | succ count ih =>
      intro w
      rw [turnUpTo]
      split
      · rfl
      · split_ifs
        · rw [ih, broken_turnOnce]
        · rfl
  exact hall _ w

/-- **A deadline within reach** does not break the wheel. -/
theorem broken_put (h : deadline ≤ span) : (w.put key deadline).broken = w.broken := by
  unfold put
  split_ifs with hdue hfar
  · rfl
  · omega
  · rfl

end Wheel

/-- The longest that a frame can ask to be remembered, in milliseconds. -/
def Frame.longestHold : Nat := 1000 * maxTtl

/-- No frame asks to be kept for longer than the longest hold. -/
theorem Neighbor.toMillis_le {n : Neighbor} {packet : Octets} (h : ofPacket packet = .ok n) :
    n.frame.ttl.toMillis ≤ Frame.longestHold := by
  obtain ⟨octets, hannounced⟩ := ofPacket_eq_ok_iff.1 h
  rw [toMillis_of_ofPacket h]
  exact Nat.mul_le_mul_left 1000 hannounced.ttl.2

/-- **An alarm within reach** does not break the wheel. -/
theorem Receiver.broken_refresh {v : Receiver} {q : Expiry} {i : IfIndex} {deadline : Nat}
    (h : deadline ≤ Wheel.span) :
    (v.refresh q i deadline).2.wheel.broken = q.wheel.broken := by
  unfold refresh
  split
  · exact Wheel.broken_put h
  · exact Wheel.broken_put h

namespace Registry

variable {r r' : Registry} {i : IfIndex} {now : Nat}

namespace SameLayout

/-- **A packet** that comes while the wheel reaches as far as any frame can ask. -/
theorem handleInbound {packet : Inbound} (h : now + Frame.longestHold ≤ Wheel.span) :
    SameLayout r (r.handleInbound now packet) := by
  rcases handleInbound_cases r now packet with ⟨-, heq⟩ | ⟨s, -, -, ⟨-, heq⟩ | ⟨n, hn, heq⟩⟩
  · rw [heq]
    exact .refl r
  · rw [heq]
    exact .modify fun _ => rfl
  · obtain ⟨t, -, -, hpacket⟩ := accept?_eq_some_iff.1 hn
    have hreach := Neighbor.toMillis_le hpacket
    rw [heq]
    refine (SameLayout.alarms fun hwhole => ?_).trans (.modify fun _ => rfl)
    rw [Receiver.broken_refresh (by omega)]
    exact hwhole

/-- A transmission leaves every port as it is laid out. -/
theorem handleTransmit : SameLayout r (r.handleTransmit i) := by
  rcases handleTransmit_cases r i with
    ⟨-, h⟩ | ⟨s, c, -, -, ⟨-, h⟩ | ⟨-, -, h⟩ | ⟨-, lo', hwrite, h⟩⟩
  · rw [h]
    exact .refl r
  · rw [h]
    exact .modify fun _ => rfl
  · rw [h]
    exact .modify fun _ => rfl
  · have hwritten : SameLayout r { r with backend := lo' } :=
      .links (Loopback.handles_of_write hwrite) (Loopback.failingOpens_of_write hwrite)
    rw [h]
    exact hwritten.trans (.modify fun _ => rfl)

/-- So does the wheel when it is turned. -/
theorem turn : SameLayout r { r with alarms := r.alarms.turn now } :=
  .alarms fun h => Wheel.broken_turn.trans h

/-- So does a neighbour that is forgotten. -/
theorem handleExpiry : SameLayout r (r.handleExpiry i) := by
  unfold Registry.handleExpiry
  split
  · exact .refl r
  · exact .modify fun _ => rfl

/-- So does the alarm that goes off for it. -/
theorem expire {alarm : Alarm} : SameLayout r (r.expire now alarm) := by
  have htaken : SameLayout r { r with alarms := r.alarms.take now alarm } := by
    refine .alarms fun h => ?_
    unfold Expiry.take
    dsimp only
    split_ifs
    · exact Wheel.broken_turn.trans h
    · exact h
  exact htaken.trans .handleExpiry

/-- **What others do with links**, if they make no open fail. -/
theorem use {use : LinkUse} (h : ∀ name, use ≠ .failOpen name true) :
    SameLayout r { r with backend := r.backend.use use } := by
  refine ⟨rfl, rfl, rfl, rfl, by rw [Loopback.handles_use], fun hf => ?_, id⟩
  cases use with
  | inject name frames => exact Loopback.failingOpens_onLink.trans hf
  | failWrite name fail => exact Loopback.failingOpens_onLink.trans hf
  | failOpen name fail =>
    cases fail with
    | true => exact absurd rfl (h name)
    | false =>
      show r.backend.failingOpens.filter (· ≠ name) = []
      rw [hf, List.filter_nil]

end SameLayout

end Registry

/-! ### What has been said of ports -/

/-- The ports that are captured when these were reported up. -/
def Layout.captured (on : Bool) (raised : List Port) : List Port := if on then raised else []

/-- How a port is laid out that was registered, and disabled or not, when these were reported
up.  Handles and generations are those of its turn. -/
def Layout.of (on : Bool) (raised : List Port) (entry : Port × Bool) : Layout where
  port := entry.1
  enabled := entry.2
  link := if entry.1 ∈ raised then .up else .down
  capture :=
    if entry.1 ∈ captured on raised then
      some ⟨(captured on raised).idxOf entry.1 + 1, (captured on raised).idxOf entry.1⟩
    else none

namespace Layout

variable {on : Bool} {raised : List Port} {p q : Port} {b : Bool} {told : List (Port × Bool)}
  {begun : List Layout} {f : Layout → Layout}

/-- The port that is reported up last is captured last. -/
theorem captured_concat : captured on (raised ++ [p]) = captured on raised ++ captured on [p] := by
  cases on <;> rfl

/-- Only ports that were reported up are captured. -/
theorem mem_raised_of_captured (h : p ∈ captured on raised) : p ∈ raised := by
  cases on with
  | true => exact h
  | false => cases h

/-- A port that was not reported up is down and not captured. -/
theorem of_of_notMem (h : p ∉ raised) : of on raised (p, b) = { port := p, enabled := b } := by
  rw [of, if_neg h, if_neg fun hc => h (mem_raised_of_captured hc)]

/-- The port that was reported up last has the handle that was opened last. -/
theorem of_concat_self (h : p ∉ raised) : of on (raised ++ [p]) (p, b) =
    { port := p, enabled := b, link := .up,
      capture := if on then some ⟨(captured on raised).length + 1, (captured on raised).length⟩
        else none } := by
  have hnot : p ∉ captured on raised := fun hc => h (mem_raised_of_captured hc)
  rw [of, if_pos (List.mem_append_right _ (List.mem_singleton_self p)), captured_concat,
    List.idxOf_append, if_neg hnot]
  cases on with
  | true => simp [captured]
  | false => simp [captured]

/-- **Another port is laid out as before.** -/
theorem of_concat_of_ne (h : q ≠ p) : of on (raised ++ [p]) (q, b) = of on raised (q, b) := by
  have hlast : q ∉ captured on [p] := fun hc =>
    h (List.mem_singleton.1 (mem_raised_of_captured hc))
  simp only [of, captured_concat, List.mem_append, List.mem_singleton, h, hlast, or_false,
    List.idxOf_append]
  split_ifs <;> rfl

/-- **One more port is reported up**: among ports with distinct indexes, one layout
changes. -/
theorem map_of_concat (hd : ((told.map (of on raised) ++ begun).map (·.port.ifIndex)).Nodup)
    (hp : (p, true) ∈ told) (hf : f (of on raised (p, true)) = of on (raised ++ [p]) (p, true)) :
    ((told.map (of on raised) ++ begun).map fun l =>
      if l.port.ifIndex = p.ifIndex then f l else l) =
      told.map (of on (raised ++ [p])) ++ begun := by
  have hmem : of on raised (p, true) ∈ told.map (of on raised) ++ begun :=
    List.mem_append_left _ (List.mem_map_of_mem hp)
  have hself : ∀ l ∈ told.map (of on raised) ++ begun, l.port.ifIndex = p.ifIndex →
      l = of on raised (p, true) :=
    fun l hl hi => List.inj_on_of_nodup_map hd hl hmem hi
  rw [List.map_append, List.map_map]
  congr 1
  · refine List.map_congr_left fun entry hentry => ?_
    obtain ⟨q, b⟩ := entry
    have hport : (of on raised (q, b)).port = q := rfl
    simp only [Function.comp, hport]
    split_ifs with hi
    · have hsame := hself _ (List.mem_append_left _ (List.mem_map_of_mem hentry)) hi
      obtain rfl : q = p := congrArg Layout.port hsame
      obtain rfl : b = true := congrArg Layout.enabled hsame
      exact hf
    · exact (of_concat_of_ne fun heq => hi (congrArg Port.ifIndex heq)).symm
  · refine (List.map_congr_left fun l hl => if_neg fun hi => ?_).trans (List.map_id _)
    have hsame := hself l (List.mem_append_right _ hl) hi
    rw [List.map_append, List.nodup_append] at hd
    exact hd.2.2 _ (List.mem_map_of_mem (List.mem_map_of_mem hp)) _ (List.mem_map_of_mem hl)
      (by rw [hsame])

end Layout

namespace Registry

/-- **A registry where so much has been said of ports**: all but those that have been begun
with were registered, and disabled or not, and some of them reported up. -/
structure LaidOut (on : Bool) (told : List (Port × Bool)) (begun : List Layout)
    (raised : List Port) (r : Registry) : Prop where
  enabled : r.settings.enabled = on
  layouts : r.layouts = told.map (Layout.of on raised) ++ begun
  upPorts : r.upPorts = (Layout.captured on raised).map Port.ifIndex
  generation : r.generation = (Layout.captured on raised).length
  handles : r.backend.handles.map Handle.interface = (Layout.captured on raised).map Port.name
  failing : r.backend.failingOpens = []
  whole : r.alarms.wheel.broken = false

namespace LaidOut

variable {on b : Bool} {told : List (Port × Bool)} {begun : List Layout} {raised : List Port}
  {r r' : Registry} {p : Port}

/-- Before anything was said, no port is there. -/
theorem ofSettings (settings : Settings) :
    (Registry.ofSettings settings).LaidOut settings.enabled [] [] [] := by
  have hnone : Layout.captured settings.enabled [] = [] := by
    unfold Layout.captured
    split_ifs <;> rfl
  refine ⟨rfl, rfl, ?_, ?_, ?_, rfl, rfl⟩ <;> rw [hnone] <;> rfl

/-- What leaves layouts alone leaves what has been said. -/
theorem same (h : r.LaidOut on told begun raised) (hs : r.SameLayout r') :
    r'.LaidOut on told begun raised where
  enabled := hs.enabled.trans h.enabled
  layouts := hs.layouts.trans h.layouts
  upPorts := hs.upPorts.trans h.upPorts
  generation := hs.generation.trans h.generation
  handles := hs.handles.trans h.handles
  failing := hs.failing h.failing
  whole := hs.whole h.whole

/-- All has been said of a port that was begun with. -/
theorem finish (h : r.LaidOut on told [{ port := p, enabled := b }] raised) (hp : p ∉ raised) :
    r.LaidOut on (told ++ [(p, b)]) [] raised := by
  refine ⟨h.enabled, ?_, h.upPorts, h.generation, h.handles, h.failing, h.whole⟩
  rw [h.layouts, List.map_append, List.append_nil, List.map_singleton, Layout.of_of_notMem hp]

/-- **One more port is registered.** -/
theorem add (h : r.LaidOut on told [] raised) (hp : p.ifIndex ∉ told.map (·.1.ifIndex)) :
    (r.add p).1 = .ok () ∧ (r.add p).2.LaidOut on told [{ port := p }] raised := by
  have hnew : r.session? p.ifIndex = none := by
    rw [session?_eq_none_iff, indexes_eq_layouts, h.layouts, List.append_nil, List.map_map]
    exact hp
  rw [Registry.add, hnew]
  refine ⟨rfl, h.enabled, ?_, h.upPorts, h.generation, h.handles, h.failing, h.whole⟩
  have hlayouts := h.layouts
  rw [List.append_nil] at hlayouts
  show (r.sessions ++ [_]).map Session.layout = _
  rw [List.map_append, ← Registry.layouts, hlayouts]
  rfl

/-- **A port that was just registered is disabled.** -/
theorem disable (h : r.LaidOut on told [{ port := p }] raised) (hd : r.Distinct)
    (hraised : ∀ q ∈ raised, (q, true) ∈ told) :
    (r.apply (.portEnable p.ifIndex false)).1 = .ok () ∧
      (r.apply (.portEnable p.ifIndex false)).2.LaidOut on told
        [{ port := p, enabled := false }] raised := by
  have hmem : { port := p } ∈ r.layouts :=
    h.layouts ▸ List.mem_append_right _ (List.mem_singleton_self _)
  obtain ⟨s, hs, hlayout⟩ := session?_of_layout hd hmem
  have hcapture : s.capture = none := congrArg Layout.capture hlayout
  have hothers : ∀ l ∈ told.map (Layout.of on raised), l.port.ifIndex ≠ p.ifIndex := by
    rw [Distinct, indexes_eq_layouts, h.layouts, List.map_append, List.nodup_append] at hd
    exact fun l hl heq => hd.2.2 _ (List.mem_map_of_mem hl) _ (List.mem_singleton_self _) heq
  have hup : p.ifIndex ∉ r.upPorts := by
    rw [h.upPorts]
    intro hmem
    obtain ⟨q, hq, hi⟩ := List.mem_map.1 hmem
    have htold := hraised q (Layout.mem_raised_of_captured hq)
    exact hothers _ (List.mem_map_of_mem htold) hi
  have hsession : (r.setPortEnabled p.ifIndex false).session? p.ifIndex =
      some { s with enabled := false } := by
    rw [session?_setPortEnabled, if_pos rfl, hs]
    rfl
  refine ⟨by rw [apply, hs], ?_⟩
  rw [apply_portEnable, follow, if_neg Bool.false_ne_true, stop, hsession]
  simp only [hcapture]
  refine ⟨h.enabled, ?_, ?_, h.generation, h.handles, h.failing, h.whole⟩
  · have hdisabled : (r.setPortEnabled p.ifIndex false).layouts =
        told.map (Layout.of on raised) ++ [{ port := p, enabled := false }] :=
      layouts_modify_last (f := fun l => { l with enabled := false }) hd h.layouts fun _ => rfl
    have hd' : (r.setPortEnabled p.ifIndex false).Distinct := by
      have hindexes : (r.setPortEnabled p.ifIndex false).indexes = r.indexes :=
        indexes_modify fun _ => rfl
      rw [Distinct, hindexes]
      exact hd
    exact layouts_modify_last (f := fun l => { l with capture := none }) hd' hdisabled fun _ => rfl
  · show r.upPorts.filter (· ≠ p.ifIndex) = _
    rw [← h.upPorts, List.filter_eq_self]
    exact fun i hi => decide_eq_true fun heq => hup (heq ▸ hi)

/-- Where indexes are distinct, no two ports have the same. -/
theorem eq_of_ifIndex {entry entry' : Port × Bool} (h : r.LaidOut on told begun raised)
    (hd : r.Distinct) (hm : entry ∈ told) (hm' : entry' ∈ told)
    (hi : entry.1.ifIndex = entry'.1.ifIndex) : entry = entry' := by
  rw [Distinct, indexes_eq_layouts, h.layouts, List.map_append, List.map_map] at hd
  exact List.inj_on_of_nodup_map (List.nodup_append.1 hd).1 hm hm' hi

/-- **A port is reported up** that was registered and not disabled: if the protocol runs at
all, its interface is opened. -/
theorem raise (h : r.LaidOut on told begun raised) (hd : r.Distinct) (hp : (p, true) ∈ told)
    (hraised : ∀ q ∈ raised, (q, true) ∈ told) (hnot : p ∉ raised) :
    (r.reportLink p.ifIndex .up).1 = .ok () ∧
      (r.reportLink p.ifIndex .up).2.LaidOut on told begun (raised ++ [p]) := by
  have hmem : Layout.of on raised (p, true) ∈ r.layouts :=
    h.layouts ▸ List.mem_append_left _ (List.mem_map_of_mem hp)
  obtain ⟨s, hs, hlayout⟩ := session?_of_layout hd hmem
  rw [Layout.of_of_notMem hnot] at hlayout hs
  obtain ⟨hport, henabled, -, hcapture⟩ := Layout.mk.inj hlayout
  have hsession : (r.setLink p.ifIndex .up).2.session? p.ifIndex = some { s with link := .up } := by
    rw [session?_setLink, if_pos rfl, hs]
    rfl
  have hraise : ∀ f : Layout → Layout,
      f { port := p } = Layout.of on (raised ++ [p]) (p, true) →
      (r.layouts.map fun l => if l.port.ifIndex = p.ifIndex then f l else l) =
        told.map (Layout.of on (raised ++ [p])) ++ begun := by
    intro f hf
    rw [Distinct, indexes_eq_layouts, h.layouts] at hd
    rw [h.layouts]
    exact Layout.map_of_concat hd hp (by rw [Layout.of_of_notMem hnot, hf])
  have hwaiting : { s with link := .up }.isCapturing = false := by
    rw [Session.isCapturing]
    exact congrArg Option.isSome hcapture
  have hlast : Layout.of on (raised ++ [p]) (p, true) = _ := Layout.of_concat_self hnot
  cases on with
  | false =>
    have hdue : (r.setLink p.ifIndex .up).2.isDue { s with link := .up } = false := by
      rw [Bool.eq_false_iff]
      intro hdue
      cases h.enabled.symm.trans (isDue_setLink_up.1 hdue).1
    have hstart : (r.setLink p.ifIndex .up).2.start p.ifIndex =
        (.ok (), (r.setLink p.ifIndex .up).2) := by
      simp [start, hsession, hdue]
    rw [reportLink_up hs, hstart, setLink_snd]
    refine ⟨rfl, h.enabled, ?_, h.upPorts, h.generation, h.handles, h.failing, h.whole⟩
    rw [layouts_modify (f := fun l => { l with link := .up }) fun _ => rfl]
    exact hraise _ hlast.symm
  | true =>
    have hdue := isDue_setLink_up (i := p.ifIndex).2 ⟨h.enabled, henabled, hwaiting⟩
    have hname : s.port.name ∉ (r.setLink p.ifIndex .up).2.backend.failingOpens := by
      rw [setLink_snd, modify_backend, h.failing]
      exact List.not_mem_nil
    obtain ⟨lo', hopen⟩ := Loopback.openHandle_of_notMem
      (r.setLink p.ifIndex .up).2.settings.capture.readTimeout Ethernet.captureFilter hname
    have hstart : (r.setLink p.ifIndex .up).2.start p.ifIndex =
        (.ok (), { (r.setLink p.ifIndex .up).2 with backend := lo' }.adopt p.ifIndex
          (r.setLink p.ifIndex .up).2.backend.handles.length) := by
      simp [start, hsession, hdue, hopen]
    rw [reportLink_up hs, hstart]
    rw [setLink_snd] at hopen ⊢
    obtain ⟨-, link, hhandles⟩ := Loopback.handles_of_openHandle hopen
    have hcount : r.backend.handles.length = raised.length := by
      rw [← List.length_map (f := Handle.interface), h.handles]
      exact List.length_map ..
    have hup : p.ifIndex ∉ r.upPorts := by
      rw [h.upPorts]
      intro hmem'
      obtain ⟨q, hq, hi⟩ := List.mem_map.1 hmem'
      obtain rfl : q = p := congrArg Prod.fst (h.eq_of_ifIndex hd (hraised q hq) hp hi)
      exact hnot hq
    refine ⟨rfl, h.enabled, ?_, ?_, ?_, ?_, ?_, h.whole⟩
    · rw [← hraise (fun l => { l with
          link := .up
          capture := some ⟨r.generation + 1, r.backend.handles.length⟩ }) ?_]
      · show ({ (r.modify p.ifIndex fun s => { s with link := .up }) with backend := lo' }.modify
          p.ifIndex _).layouts = _
        rw [layouts_modify (f := fun l => { l with
          capture := some ⟨r.generation + 1, r.backend.handles.length⟩ }) fun _ => rfl]
        show (r.modify p.ifIndex fun s => { s with link := .up }).layouts.map _ = _
        rw [layouts_modify (f := fun l => { l with link := .up }) fun _ => rfl, List.map_map]
        refine List.map_congr_left fun l _ => ?_
        simp only [Function.comp]
        split_ifs <;> rfl
      · rw [hlast, h.generation, hcount]
        rfl
    · show (if p.ifIndex ∈ r.upPorts then r.upPorts else r.upPorts ++ [p.ifIndex]) = _
      rw [if_neg hup, h.upPorts, Layout.captured_concat, List.map_append]
      rfl
    · show r.generation + 1 = _
      rw [h.generation, Layout.captured_concat, List.length_append]
      rfl
    · show lo'.handles.map Handle.interface = _
      rw [hhandles, List.map_append, Layout.captured_concat, List.map_append, List.map_singleton,
        hport]
      exact congrArg (· ++ [p.name]) h.handles
    · exact (Loopback.failingOpens_of_openHandle hopen).trans h.failing

end LaidOut

end Registry

/-! ### Tasks -/

/-- A task that reads a capture makes no open fail. -/
theorem Station.Advance.failingOpens {st : Station} {t : CaptureTask}
    {phase? : Option CapturePhase} {lo : Loopback} {box : Mailbox Nat Inbound}
    (h : st.Advance t phase? lo box) : lo.failingOpens = st.registry.backend.failingOpens := by
  have hserve : ∀ {link : Nat} {ended : Option (Nat × ReadOutcome)},
      st.registry.backend.serve link st.now = (ended, lo) →
      lo.failingOpens = st.registry.backend.failingOpens := by
    intro link ended hserved
    unfold Loopback.serve at hserved
    split at hserved
    · rw [← (Prod.mk.inj hserved).2]
    · rw [← (Prod.mk.inj hserved).2]
  cases h with
  | queued =>
    unfold Loopback.queueReader
    split <;> rfl
  | got _ _ _ h => exact hserve h
  | tired _ _ _ h => exact hserve h
  | lost _ _ _ h => exact hserve h
  | waits _ _ _ h => exact hserve h
  | _ => rfl

/-- **No task** changes how ports are laid out. -/
theorem Station.sameLayout_step {st : Station} (hranked : st.registry.Ranked) (task : StationTask) :
    st.registry.SameLayout (st.step task).registry := by
  rcases step_cases hranked task with
    ⟨heq, -⟩ | ⟨t, phase?, lo, box, -, -, hadvance, heq⟩ |
    ⟨i, s, ticker, triggers, stamp, -, -, -, heq⟩
  · rw [heq]
    exact .refl _
  · rw [heq]
    cases phase? with
    | none => exact .links hadvance.handles hadvance.failingOpens
    | some phase => exact .links hadvance.handles hadvance.failingOpens
  · have htaken : st.registry.SameLayout { st.registry with triggers } := .links rfl rfl
    rw [heq]
    exact htaken.trans (.modify fun _ => rfl)

end Lldp
