/-
# The order of iteration does not matter

Switching the protocol on or off, changing the timing and shutting down go through all
sessions, in the order in which a table happens to have them.  Whatever happened to a
station before, two orders come to the same (`sessions_in_any_order`).

Stopping and new timing leave nothing that tells the order.  Starting leaves three things:
the numbers of the captures, which are exchanged, the order of the ports that have been
started, behind those that were captured before, and whose first frame is asked for, as far
as there is room in the mailbox.  What is the same is therefore said up to a renaming of
numbers that did not exist before (`Registry.Alike`, `Renaming.Fresh`).
-/

import Lldp.Proofs.Registry.Renaming
import Lldp.Proofs.Station.Prompting

namespace Lldp

namespace Registry

variable {r r' : Registry}

namespace Poised

/-- Nothing that ports share depends on the order of the sessions. -/
theorem reordered (h : r.Poised) (h' : Reordered r r') : r'.Poised := by
  have hsession := h'.session? h.distinct
  have hcapture : ∀ j, r'.capture? j = r.capture? j := fun j => by
    rw [capture?, hsession, capture?]
  obtain ⟨starts, horder⟩ := h.ordered
  have hrest := h'.rest
  have hbeat : r'.beat? = r.beat? := funext fun j => by rw [beat?, hsession, beat?]
  refine ⟨⟨starts, horder.of_captures (h'.distinct h.distinct) hcapture ?_ ?_ fun j s hs => ?_⟩,
    h.wired.of_captures ?_ (fun k hd hhd => ⟨hd, ?_, rfl⟩) fun j s c hs hc => ⟨s, ?_, rfl, hc⟩,
    h.numbered.of_captures ?_ ?_ (fun j c hc => hcapture j ▸ hc) ?_, ⟨?_, ?_⟩⟩
  · rw [hrest]
  · rw [hrest]
  · rw [hsession] at hs
    have hsettings : r'.settings = r.settings := by rw [hrest]
    rw [hsettings]
    exact ⟨horder.ticking j s hs, horder.cached j s hs, horder.timing j s hs⟩
  · rw [hrest]
    exact h.wired.backend
  · rw [hrest]
    exact hhd
  · rw [← hsession]
    exact hs
  · rw [hrest]
  · rw [hrest]
  · rw [hrest]
  · rw [hbeat, hrest]
    exact h.tickers.idle
  · rw [hbeat, hrest]
    exact h.tickers.own

theorem setEnabled (h : r.Poised) (on : Bool) : (r.setEnabled on).Poised := by
  obtain ⟨starts, horder⟩ := h.ordered
  exact ⟨⟨_, horder.alters .setEnabled⟩, h.wired.alters .setEnabled,
    h.numbered.alters .setEnabled, ⟨h.tickers.idle, h.tickers.own⟩⟩

/-- **Every port that can be started is**, in any order. -/
theorem globalEnable_on (h : r.Poised) (h' : Reordered r r') :
    ∃ ρ : Renaming, ρ.Fresh r (r.apply (.globalEnable true)).2 ∧
      Alike r ρ (r.apply (.globalEnable true)).2 (r'.apply (.globalEnable true)).2 := by
  rw [apply_globalEnable, apply_globalEnable]
  have hset : Reordered (r.setEnabled true) (r'.setEnabled true) := by
    refine ⟨h'.sessions, ?_⟩
    rw [h'.rest]
    rfl
  have hq := h.setEnabled true
  have hq' := hq.reordered hset
  have hup : (r'.setEnabled true).upPorts = r.upPorts ++ [] := by
    rw [hset.rest, List.append_nil]
    rfl
  have htriggers : (r'.setEnabled true).triggers = r.triggers.fill [] := by
    rw [hset.rest, Mailbox.fill_nil]
    rfl
  have hsame : Alike r .refl (r.setEnabled true) (r'.setEnabled true) :=
    .of_reordered hset (List.append_nil _).symm (Mailbox.fill_nil _).symm
  have hown : Alike r .refl (r'.setEnabled true) (r'.setEnabled true) :=
    .of_reordered (.of_perm (.refl _)) hup htriggers
  -- First the same ports in the same order, then in the other.
  obtain ⟨hsame, -⟩ := hsame.followAll r.indexes hq hq' (.refl r _)
  obtain ⟨ρ, hfresh, hother⟩ := followAll_on_perm h'.indexes hq' hown
  refine ⟨Renaming.refl.trans ρ, (Renaming.Fresh.refl _ _).trans (hfresh.mono ?_ ?_),
    hsame.trans hother⟩
  · rw [hset.rest]
    exact ⟨Nat.le_refl _, Nat.le_refl _⟩
  · exact ⟨Nat.le_of_eq hsame.generation,
      Nat.le_of_eq ((hq.followAll _).handles_eq (hq'.followAll _) hsame.generation)⟩

end Poised

/-- **Every port is stopped**, in any order. -/
theorem Reordered.globalEnable_off (h : Reordered r r') (hd : r.Distinct) :
    Reordered (r.apply (.globalEnable false)).2 (r'.apply (.globalEnable false)).2 := by
  have hset : Reordered (r.setEnabled false) (r'.setEnabled false) := by
    refine ⟨h.sessions, ?_⟩
    rw [h.rest]
    rfl
  exact hset.followAll_off hd

/-- **Timing is adopted or refused**, in any order. -/
theorem Reordered.timing (h : Reordered r r') (hd : r.Distinct) (interval multiplier : Nat) :
    (r.apply (.timing interval multiplier)).1 = (r'.apply (.timing interval multiplier)).1 ∧
      Reordered (r.apply (.timing interval multiplier)).2
        (r'.apply (.timing interval multiplier)).2 := by
  unfold apply
  dsimp only
  cases Timing.ofNumbers interval multiplier with
  | error e => exact ⟨rfl, h⟩
  | ok timing => exact ⟨rfl, h.retime hd timing⟩

end Registry

namespace Station

variable {st : Station}

/-- **Names, handles and links stay wired**, whatever happens. -/
theorem wired_after (h : st.registry.Wired) (hranked : st.registry.Ranked) (x : Incident) :
    (st.after x).registry.Wired := by
  rcases after_cases st x with ⟨task, -, heq⟩ | ⟨log, haltered⟩ | ⟨use, -, heq⟩ | ⟨-, heq⟩
  · have hhandles := handles_step hranked task
    rw [heq]
    refine h.of_captures (h.backend.of_handles (labels_step hranked task) hhandles)
      (fun k hd hhd => ⟨hd, hhandles ▸ hhd, rfl⟩) fun j s c hs hc => ?_
    obtain ⟨-, surroundings, hdrift⟩ := drifts_step st task
    rw [hdrift, Registry.session?_surround] at hs
    obtain ⟨u, hu, rfl⟩ := Option.map_eq_some_iff.1 hs
    exact ⟨u, hu, rfl, hc⟩
  · exact h.alters haltered
  · rw [heq]
    exact h.of_captures (h.backend.use use)
      (fun k hd hhd => ⟨hd, by rw [← hhd]; exact congrArg (·[k]?) Loopback.handles_use, rfl⟩)
      fun j s c hs hc => ⟨s, hs, rfl, hc⟩
  · rw [heq]
    exact h.of_captures h.backend (fun k hd hhd => ⟨hd, hhd, rfl⟩)
      fun j s c hs hc => ⟨s, hs, rfl, hc⟩

theorem poised_run (settings : Settings) (incidents : List Incident) :
    ((ofSettings settings).run incidents).registry.Poised := by
  have hconsistent := (Consistent.ofSettings settings).run incidents
  refine ⟨hconsistent.ordered, ?_, hconsistent.numbered, tickersAgree_run settings incidents⟩
  induction incidents using List.reverseRecOn with
  | nil => exact .ofSettings settings
  | append_singleton incidents x ih =>
    rw [run_concat]
    exact wired_after (ih ((Consistent.ofSettings settings).run incidents))
      (ranked_run settings incidents) x

/-- **The order in which sessions are gone through does not matter.**  Whatever has happened
to a station, let its sessions be in any two orders.  Switching the protocol on leaves the
same sessions, settings, alarms, links, tasks and handles, up to numbers of captures that did
not exist before, and adds the same ports behind those that were captured before; as many of
them ask for a first frame as there is room for, in the order in which they come.  Switching
it off, changing the timing and shutting down leave everything the same. -/
theorem sessions_in_any_order (settings : Settings) (incidents : List Incident)
    (ss ss' : List Session)
    (hss : ((ofSettings settings).run incidents).registry.sessions.Perm ss)
    (hss' : ((ofSettings settings).run incidents).registry.sessions.Perm ss') :
    let r : Registry := { ((ofSettings settings).run incidents).registry with sessions := ss }
    let r' : Registry := { ((ofSettings settings).run incidents).registry with sessions := ss' }
    (∃ ρ : Renaming, ρ.Fresh r (r.apply (.globalEnable true)).2 ∧
      Registry.Alike r ρ (r.apply (.globalEnable true)).2 (r'.apply (.globalEnable true)).2) ∧
    Registry.Reordered (r.apply (.globalEnable false)).2 (r'.apply (.globalEnable false)).2 ∧
    (∀ interval multiplier,
      (r.apply (.timing interval multiplier)).1 = (r'.apply (.timing interval multiplier)).1 ∧
      Registry.Reordered (r.apply (.timing interval multiplier)).2
        (r'.apply (.timing interval multiplier)).2) ∧
    Registry.Reordered r.shutdown r'.shutdown := by
  intro r r'
  have hpoised : r.Poised := (poised_run settings incidents).reordered (.of_perm hss)
  have hreordered : Registry.Reordered r r' :=
    Registry.Reordered.of_perm (r := r) (hss.symm.trans hss')
  exact ⟨hpoised.globalEnable_on hreordered, hreordered.globalEnable_off hpoised.distinct,
    hreordered.timing hpoised.distinct, hreordered.shutdown hpoised.distinct⟩

/-- Three ports whose links are up while the protocol is switched off.  Two of them share an
interface; that of the third cannot be opened. -/
def switchedOff : List Incident :=
  [.operation (.request (.add { ifIndex := 1, number := 1, name := "eth0", mac := Mac.zero })),
    .operation (.request (.add { ifIndex := 2, number := 2, name := "eth0", mac := Mac.zero })),
    .operation (.request (.add { ifIndex := 3, number := 3, name := "eth1", mac := Mac.zero })),
    .operation (.request (.reportLink 1 .up)), .operation (.request (.reportLink 2 .up)),
    .operation (.request (.reportLink 3 .up)), .operation (.links (.failOpen "eth1" true))]

/-- Two of them are started, in either order, and one may ask for its first frame. -/
theorem sessions_in_any_order_shared :
    let r := ((ofSettings { enabled := false, capacity := 1 }).run switchedOff).registry
    let on := (r.apply (.globalEnable true)).2
    let on' := ({ r with sessions := r.sessions.reverse }.apply (.globalEnable true)).2
    on.upPorts = [1, 2] ∧ on'.upPorts = [2, 1] ∧
      on.triggers.items = [1] ∧ on'.triggers.items = [2] ∧
      ∃ ρ : Renaming, ρ.Fresh r on ∧ Registry.Alike r ρ on on' := by
  intro r on on'
  obtain ⟨halike, -⟩ := sessions_in_any_order { enabled := false, capacity := 1 } switchedOff
    r.sessions r.sessions.reverse (.refl _) (List.reverse_perm _).symm
  exact ⟨by decide +kernel, by decide +kernel, by decide +kernel, by decide +kernel, halike⟩

end Station

end Lldp
