/-
# Shutting down

While the dispatcher of a service is there, the station is one that a run has brought
about in which nobody has shut it down or told a port of an alarm that has not gone off
(`exists_run`).  So captures, alarms and handles are in order whenever the dispatcher may
be told to end, and to shut the station down is to put it at rest
(`shutdown_is_quiescent`): what ports were told, have learned and have counted is left, and
everything they had running is gone, whatever became of it since it was begun.

What lies in the mailboxes at that time, and whatever else happens afterwards, reaches no
port any more.
-/

import Lldp.Proofs.Delivery
import Lldp.Proofs.Station.AtRest
import Lldp.Proofs.Station.Prompting

namespace Lldp
namespace Service

variable {s : Service} {acts early late : List Act} {settings : Settings}

/-- **The station of a service whose dispatcher is there** has come about by what is in the
routine of a station and the exit signal. -/
theorem exists_run (h : s.station.registry.AlarmsAgree)
    (hrunning : (s.perform acts).running = true) :
    ∃ incidents, (s.perform acts).station = s.station.run incidents ∧
      ∀ x ∈ incidents, x.isRoutine = true ∨ x = .exit := by
  induction acts generalizing s with
  | nil => exact ⟨[], rfl, nofun⟩
  | cons a acts ih =>
    have hthen : ((s.act a).perform acts).running = true := hrunning
    rcases act_running_cases h (running_of_perform hthen) with heq | ⟨x, hx, heq⟩
    · obtain ⟨incidents, hrun, hall⟩ := ih (by rwa [heq]) hthen
      refine ⟨incidents, ?_, hall⟩
      rw [heq] at hrun
      exact hrun
    · have hshut : x ≠ .shutdown := by
        rintro rfl
        exact hx.elim nofun nofun
      have hexpiry : ∀ i, x ≠ .expiry i := by
        rintro i rfl
        exact hx.elim nofun nofun
      have hagree : (s.act a).station.registry.AlarmsAgree := by
        rw [heq]
        exact Station.alarmsAgree_after h hshut hexpiry
      obtain ⟨incidents, hrun, hall⟩ := ih hagree hthen
      refine ⟨x :: incidents, ?_, List.forall_mem_cons.2 ⟨hx, hall⟩⟩
      rw [heq] at hrun
      exact hrun

theorem alarmsAgree_perform (h : s.station.registry.AlarmsAgree)
    (hrunning : (s.perform acts).running = true) :
    (s.perform acts).station.registry.AlarmsAgree := by
  obtain ⟨incidents, heq, hall⟩ := exists_run h hrunning
  rw [heq]
  exact Station.alarmsAgree_run h (fun hmem => (hall _ hmem).elim nofun nofun)
    fun i hmem => (hall _ hmem).elim nofun nofun

/-- **Every handle that was ever opened** is there while the dispatcher is. -/
theorem handlesKept_perform
    (hrunning : ((ofSettings settings).perform (early ++ late)).running = true) :
    ((ofSettings settings).perform early).station.registry.HandlesKept
      ((ofSettings settings).perform (early ++ late)).station.registry := by
  rw [perform_append] at hrunning ⊢
  have hagree := Registry.AlarmsAgree.ofSettings settings
  have hearly := running_of_perform hrunning
  obtain ⟨before, hbefore, -⟩ := exists_run hagree hearly
  obtain ⟨after, hafter, -⟩ := exists_run (alarmsAgree_perform hagree hearly) hrunning
  rw [hafter]
  refine Station.handlesKept_run ?_
  rw [hbefore]
  exact Station.ranked_run settings before

/-- **To shut down is to put at rest.**  From whatever state a service has come to while its
dispatcher is there:

* settings stay, and so does all that ports were told, have learned and have counted; nothing
  is written;
* no port is captured or has a ticker, a packet ready or an alarm, neither in its session nor
  where these are kept elsewhere, and every handle that was ever opened is closed;
* to shut down again changes nothing, and neither does any packet, any request to transmit
  or the time of any alarm;
* nor does anything that happens afterwards and asks nothing new of the registry, be it that
  what lay in the mailboxes is taken out and handed over. -/
theorem shutdown_is_quiescent (settings : Settings) (acts : List Act)
    (hrunning : ((ofSettings settings).perform acts).running = true) :
    let st := ((ofSettings settings).perform acts).station
    let down := st.registry.shutdown
    (down.settings = st.registry.settings ∧
      down.sessions = st.registry.sessions.map Session.rest ∧
      ∀ link, down.backend.sentAt link = st.registry.backend.sentAt link) ∧
    ((∀ i, down.isCapturing i = false) ∧ down.upPorts = [] ∧ down.alarms.alarms = [] ∧
      down.alarms.misused = false ∧ down.triggers.waiting = [] ∧
      (∀ hd ∈ down.backend.handles, hd.closed = true) ∧
      ∀ early late, acts = early ++ late → ∀ (k : Nat) (hd : Handle),
        ((ofSettings settings).perform early).station.registry.backend.handles[k]? = some hd →
        down.backend.handles[k]? = some { hd with closed := true }) ∧
    (down.shutdown = down ∧ (∀ now packet, down.handleInbound now packet = down) ∧
      (∀ i, down.handleTransmit i = down) ∧
      ∀ now, down.expireNext? now = none ∧ down.fire now = ([], down)) ∧
    ∀ incidents : List Incident, (∀ x ∈ incidents, x.isPassive = true) →
      down.Stays ((st.onRegistry Registry.shutdown).run incidents).registry := by
  intro st down
  have hstart := Registry.AlarmsAgree.ofSettings settings
  obtain ⟨incidents, hrun, -⟩ := exists_run hstart hrunning
  have hrun : st = (Station.ofSettings settings).run incidents := hrun
  have horder := Station.inOrder_run settings incidents
  have hranked := Station.ranked_run settings incidents
  have htickers := Station.tickersAgree_run settings incidents
  rw [← hrun] at horder hranked htickers
  have hkeys : st.registry.KeysKept := (alarmsAgree_perform hstart hrunning).keysKept
  have hrest : down.AtRest := Registry.atRest_shutdown horder hkeys htickers
  have hclosed : ∀ hd ∈ down.backend.handles, hd.closed = true := fun hd hmem =>
    (congrArg Handle.closed (hrest.handles hd hmem)).symm
  refine ⟨⟨Registry.settings_shutdown, Registry.sessions_shutdown horder.distinct,
      fun _ => Registry.sentAt_shutdown⟩,
    ⟨hrest.isCapturing, hrest.upPorts, hrest.alarms, hkeys.shutdown.used, hrest.waiting, hclosed,
      ?handles⟩,
    ⟨hrest.shutdown, hrest.handleInbound, hrest.handleTransmit,
      fun now => ⟨hrest.expireNext? now, hrest.fire now⟩⟩, ?afterwards⟩
  case handles =>
    rintro early late rfl k hd hopened
    have hkept := (handlesKept_perform hrunning).trans Registry.Alters.shutdown.handlesKept
    have hthere := hkept.getElem? hopened
    rw [List.map_congr_left hrest.handles, List.map_id'' fun _ => rfl] at hthere
    exact hthere
  case afterwards =>
    intro incidents hpassive
    have hdown : (st.onRegistry Registry.shutdown).registry.Ranked :=
      hranked.alters Registry.Alters.shutdown
    exact @Station.stays_run (st.onRegistry Registry.shutdown) incidents hrest hdown hpassive

/-- Port 1 has a neighbour, an alarm and a packet ready, and its ticker has just asked for
it again. -/
def parting : List Act :=
  listening ++ greeted ++ [.pass 30000, .task (.station (.ticker 1))]

/-- The request is still there when the port is shut down, and is met in vain; the alarm
does not go off when its time comes. -/
theorem quiescent_with_work_left :
    let st := ((ofSettings {}).perform parting).station
    let down := st.registry.shutdown
    ((ofSettings {}).perform parting).running = true ∧ st.registry.triggers.items = [1] ∧
      st.registry.upPorts = [1] ∧ st.registry.alarms.alarms.map Alarm.deadline = [120000] ∧
      (st.registry.neighbor? 1).isSome = true ∧
      down.upPorts = [] ∧ down.alarms.alarms = [] ∧
      down.sessions = st.registry.sessions.map Session.rest ∧
      (∀ hd ∈ down.backend.handles, hd.closed = true) ∧
      down.Stays ((st.onRegistry Registry.shutdown).run
        [.trigger true, .operation (.pass 90000), .turn, .operation (.fire 1)]).registry := by
  intro st down
  have hrunning : ((ofSettings {}).perform parting).running = true := by decide +kernel
  obtain ⟨⟨-, hsessions, -⟩, ⟨-, hup, halarms, -, -, hclosed, -⟩, -, hstays⟩ :=
    shutdown_is_quiescent {} parting hrunning
  exact ⟨hrunning, by decide +kernel, by decide +kernel, by decide +kernel, by decide +kernel, hup,
    halarms, hsessions, hclosed, hstays _ (by decide)⟩

end Service
end Lldp
