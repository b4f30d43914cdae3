/-
# Start-up comes out the same

While a station starts, the script, the link-state controller, the dispatcher and the tasks
that read captures get on each in its own time, others use the links and time passes.
Whatever comes next, the daemon has come to some point of start-up after it
(`Daemon.At.after`), and all such points at which nothing is left to be said agree on the
ports (`Daemon.At.startedAs`).  So the outcome depends on the configuration alone
(`Daemon.starts_as_configured`): the ports that are to be heard of are captured in the order
in which they are configured, if the protocol runs at all, and no interface was opened for
the others.

A packet that asks for an alarm beyond the wheel would break the dispatcher down.  So either
no frame arrives in the meantime, or start-up is over in good time (`Daemon.Calm`).
-/

import Lldp.Proofs.Config
import Lldp.Proofs.Startup.Progress

namespace Lldp

/-- A registry that is as configured: every port is registered, once and with its data, and
captured if it is to be heard of and the protocol runs at all.  Only such ports were opened, in
their order. -/
structure Registry.StartedAs (c : Config) (r : Registry) : Prop where
  registered : r.sessions.map (fun s => ((.ok s.port : Except Error Port), s.enabled)) =
    c.ports.map fun pc => (pc.port, pc.enabled)
  once : r.indexes.Nodup
  up : r.upPorts = if c.global.enabled then (c.ports.filter (·.enabled)).map (·.ifIndex) else []
  silent : ∀ s ∈ r.sessions, s.enabled = false → s.link = .down ∧ s.capture = none
  reported : ∀ s ∈ r.sessions, s.enabled = true →
    s.link = .up ∧ (s.capture.isSome = c.global.enabled)
  opened : r.backend.handles.map Handle.interface =
    if c.global.enabled then (c.ports.filter (·.enabled)).map (·.name) else []
  handles : r.upPorts.map r.handle? = (List.range r.backend.handles.length).map some

/-- The ports that are to be heard of, in their order. -/
def Plan.audible (ports : List (Port × Bool)) : List Port := (ports.filter (·.2)).map (·.1)

namespace Registry.LaidOut

variable {on : Bool} {ports : List (Port × Bool)} {r : Registry} {q : Port}

/-- Where all has been said, a port is one that is planned, and laid out so. -/
theorem exists_planned (h : r.LaidOut on ports [] (Plan.audible ports)) {s : Session}
    (hs : s ∈ r.sessions) :
    ∃ q, (q, s.enabled) ∈ ports ∧ Layout.of on (Plan.audible ports) (q, s.enabled) = s.layout := by
  have hmem : s.layout ∈ r.layouts := List.mem_map_of_mem hs
  rw [h.layouts, List.append_nil] at hmem
  obtain ⟨⟨q, b⟩, hq, heq⟩ := List.mem_map.1 hmem
  obtain rfl : b = s.enabled := congrArg Layout.enabled heq
  exact ⟨q, hq, heq⟩

/-- It is to be heard of or not, whatever else is planned. -/
theorem mem_audible_iff (h : r.LaidOut on ports [] (Plan.audible ports)) (hd : r.Distinct)
    {b : Bool} (hq : (q, b) ∈ ports) : q ∈ Plan.audible ports ↔ b = true := by
  refine ⟨fun hmem => ?_, fun hb => List.mem_map.2 ⟨(q, b), List.mem_filter.2 ⟨hq, hb⟩, rfl⟩⟩
  obtain ⟨⟨q', b'⟩, hmem', rfl⟩ := List.mem_map.1 hmem
  obtain ⟨hq', hb'⟩ := List.mem_filter.1 hmem'
  rw [(Prod.mk.inj (h.eq_of_ifIndex hd hq hq' rfl)).2]
  exact hb'

/-- **A captured port** has the handle that was opened in its turn. -/
theorem handle?_eq (h : r.LaidOut on ports [] (Plan.audible ports)) (hd : r.Distinct)
    (hq : q ∈ Layout.captured on (Plan.audible ports)) :
    r.handle? q.ifIndex = some ((Layout.captured on (Plan.audible ports)).idxOf q) := by
  obtain ⟨⟨q', b⟩, hmem, rfl⟩ := List.mem_map.1 (Layout.mem_raised_of_captured hq)
  have hlayout : Layout.of on (Plan.audible ports) (q', b) ∈ r.layouts := by
    rw [h.layouts, List.append_nil]
    exact List.mem_map_of_mem (List.mem_of_mem_filter hmem)
  obtain ⟨s, hs, heq⟩ := session?_of_layout hd hlayout
  have hcapture : s.capture = _ := congrArg Layout.capture heq
  rw [Layout.of, if_pos hq] at hcapture
  rw [handle?, capture?, show r.session? q'.ifIndex = some s from hs]
  exact congrArg (Option.map Capture.handle) hcapture

/-- No port is captured twice. -/
theorem nodup_captured (h : r.LaidOut on ports [] (Plan.audible ports)) (hd : r.Distinct) :
    (Layout.captured on (Plan.audible ports)).Nodup := by
  rw [Distinct, indexes_eq_layouts, h.layouts, List.append_nil, List.map_map] at hd
  have hports : (ports.map (·.1)).Nodup := by
    refine List.Nodup.of_map Port.ifIndex ?_
    rw [List.map_map]
    exact hd
  unfold Layout.captured
  split_ifs
  · exact hports.sublist (List.filter_sublist.map _)
  · exact List.nodup_nil

/-- **The handles** are those of the captured ports, in their order. -/
theorem map_handle? (h : r.LaidOut on ports [] (Plan.audible ports)) (hd : r.Distinct) :
    r.upPorts.map r.handle? = (List.range r.backend.handles.length).map some := by
  have hlength : r.backend.handles.length =
      (Layout.captured on (Plan.audible ports)).length := by
    rw [← List.length_map (f := Handle.interface), h.handles, List.length_map]
  rw [h.upPorts, List.map_map, hlength]
  refine List.ext_getElem (by simp) fun k hk _ => ?_
  rw [List.length_map] at hk
  rw [List.getElem_map, List.getElem_map, List.getElem_range, Function.comp,
    h.handle?_eq hd (List.getElem_mem hk), (h.nodup_captured hd).idxOf_getElem]

/-- **Where all has been said**, ports are as configured. -/
theorem startedAs {c : Config} (h : r.LaidOut c.global.enabled ports [] (Plan.audible ports))
    (hplans : List.Forall₂ Config.Plans c.ports ports)
    (hnodup : (c.ports.map (·.ifIndex)).Nodup) : r.StartedAs c := by
  have hlayouts := h.layouts
  rw [List.append_nil] at hlayouts
  have hindexes : r.indexes = c.ports.map (·.ifIndex) := by
    rw [indexes_eq_layouts, hlayouts, List.map_map]
    exact (Config.map_planned hplans fun _ _ hp => hp.data.1.symm).symm
  have hd : r.Distinct := by
    rw [Distinct, hindexes]
    exact hnodup
  have hcaptured : ∀ {α : Type} (f : Port → α),
      (Layout.captured c.global.enabled (Plan.audible ports)).map f =
        if c.global.enabled then (ports.filter (·.2)).map fun e => f e.1 else [] := by
    intro α f
    unfold Layout.captured
    split_ifs
    · exact List.map_map ..
    · rfl
  refine ⟨?_, hindexes ▸ hnodup, ?_, ?_, ?_, ?_, ?_⟩
  · have hdata : r.sessions.map (fun s => ((.ok s.port : Except Error Port), s.enabled)) =
        r.layouts.map fun l => (.ok l.port, l.enabled) := by
      rw [Registry.layouts, List.map_map]
      rfl
    rw [hdata, hlayouts, List.map_map]
    exact (Config.map_planned hplans fun _ _ hp => Prod.ext hp.1 hp.2).symm
  · rw [h.upPorts, hcaptured, Config.map_enabled hplans fun _ _ hp => hp.data.1.symm]
  · intro s hs hoff
    obtain ⟨q, hq, heq⟩ := h.exists_planned hs
    rw [hoff] at hq heq
    rw [Layout.of_of_notMem (by simp [h.mem_audible_iff hd hq])] at heq
    exact ⟨(congrArg Layout.link heq).symm, (congrArg Layout.capture heq).symm⟩
  · intro s hs hon
    obtain ⟨q, hq, heq⟩ := h.exists_planned hs
    rw [hon] at hq heq
    have hmem := (h.mem_audible_iff hd hq).2 rfl
    have hlink : s.link = _ := (congrArg Layout.link heq).symm
    have hcapture : s.capture = _ := (congrArg Layout.capture heq).symm
    rw [Layout.of, if_pos hmem] at hlink hcapture
    refine ⟨hlink, ?_⟩
    rw [hcapture, Layout.captured]
    cases c.global.enabled with
    | true => rw [if_pos rfl, if_pos hmem]; rfl
    | false => rfl
  · rw [h.handles, hcaptured, Config.map_enabled hplans fun _ _ hp => hp.data.2.symm]
  · exact h.map_handle? hd

end Registry.LaidOut

namespace Daemon

variable {p : Plan} {x : Progress} {d : Daemon}

/-- What can happen while a station starts. -/
inductive Step where
  /-- A task makes its next step, if it is able to. -/
  | task (task : DaemonTask)
  /-- Others do something with a link. -/
  | links (use : LinkUse)
  /-- Time passes. -/
  | pass (ms : Nat)
deriving DecidableEq

/-- How long it takes. -/
def Step.elapsed : Step → Nat
  | .pass ms => ms
  | _ => 0

/-- How long several things take. -/
def elapsed (steps : List Step) : Nat := steps.foldl (fun ms step => ms + step.elapsed) 0

/-- A daemon after one thing has happened. -/
def after (d : Daemon) : Step → Daemon
  | .task task => d.step task
  | .links use => { d with service := d.service.act (.links use) }
  | .pass ms => { d with service := d.service.act (.pass ms) }

/-- A daemon after several things have happened, the first of which comes first. -/
def run (d : Daemon) (steps : List Step) : Daemon := steps.foldl after d

/-- No frame arrives, or there is time left for the longest hold that a frame can ask for. -/
def Calm (steps : List Step) : Prop :=
  (∀ name frames, .links (.inject name frames) ∉ steps) ∨
    elapsed steps + Frame.longestHold ≤ Wheel.span

/-- All ports have been registered, and all notifications have been seen to their end. -/
structure Settled (d : Daemon) : Prop where
  done : d.phase = .done
  items : d.service.watch.notices.items = []
  pending : d.service.watch.pending = none

/-- The script leaves the station to the dispatcher. -/
theorem station_scriptStep : d.scriptStep.service.station = d.service.station := by
  have hreport : ∀ port, (d.taken.report port).service.station = d.service.station := by
    intro port
    unfold report
    dsimp only
    split <;> rfl
  have hask : ∀ (d' : Daemon) q, (d'.ask q).service.station = d'.service.station := fun d' q =>
    (Service.spares_submit scriptClient q).1
  unfold scriptStep
  split
  · split
    · rfl
    · exact hask _ _
  · split
    · rfl
    · rfl
    · split_ifs
      · exact hreport _
      · exact hask _ _
  · split <;> rfl
  · rfl
  · rfl
  · rfl

/-- A step of the script is none of the station. -/
theorem station_script (d : Daemon) : (d.step .script).service.station = d.service.station := by
  show (if d.scriptReady then d.scriptStep else d).service.station = _
  split_ifs
  · exact station_scriptStep
  · rfl

/-- **The clock** stands still but while time passes. -/
theorem now_after (d : Daemon) (step : Step) :
    (d.after step).service.station.now = d.service.station.now + step.elapsed := by
  cases step with
  | task task =>
    cases task with
    | script => exact congrArg Station.now (station_script d)
    | service task => exact (Service.step_keeps task d.service).2
  | links use => rfl
  | pass ms => rfl

/-- **Where no frame arrives**, none is there to be read. -/
theorem silent_after {step : Step} (h : d.service.station.Silent) (htended : d.service.station.Tended)
    (hlive : (d.after step).service.Live)
    (hnone : ∀ name frames, step ≠ .links (.inject name frames)) :
    (d.after step).service.station.Silent := by
  have hact : ∀ {a : Act}, (d.service.act a).Live → (∀ name, a.injected name = []) →
      (d.service.act a).station.Silent := by
    intro a hlive hnone
    rcases Service.act_cases htended.sound.alarms hlive with ⟨heq, -⟩ | ⟨x, hx, heq, -, hinjected⟩
    · rw [heq]
      exact h
    · rw [heq]
      exact h.after htended hx fun name => (hinjected name).symm.trans (hnone name)
  cases step with
  | task task =>
    cases task with
    | script =>
      have hstation : (d.after (.task .script)).service.station = d.service.station :=
        station_script d
      rw [hstation]
      exact h
    | service task => exact hact (a := .task task) hlive fun _ => rfl
  | links use =>
    refine hact (a := .links use) hlive fun name => ?_
    cases use with
    | inject name frames => exact absurd rfl (hnone name frames)
    | _ => rfl
  | pass ms => exact hact (a := .pass ms) hlive fun _ => rfl

namespace At

/-- **Before anything happens.** -/
theorem ofPlan (p : Plan) : (Daemon.ofPlan p).At p {} where
  planned := rfl
  shows := Or.inl rfl
  reported := rfl
  serving := by
    have hserving : (Service.ofSettings p.settings).Serving [] [] :=
      { orderly := Service.orderly_withClients p.settings 0
        live := ⟨rfl, rfl⟩
        tended := .ofSettings p.settings
        clients := rfl
        heard := fun k e => by
          rw [show (Service.ofSettings p.settings).client k = .idle from
            Service.client_withClients p.settings 0 k]
          nofun
        operator := .idle rfl rfl rfl
        watcher := .idle rfl rfl rfl }
    exact hserving.of_watch rfl
  watch := ⟨rfl, rfl, rfl, rfl, rfl, rfl, rfl⟩
  laidOut := .ofSettings p.settings

/-- **Whatever happens next**, start-up has come to some point. -/
theorem after (h : d.At p x) (hp : (p.ports.map (·.1.ifIndex)).Nodup) {step : Step}
    (hopens : ∀ name, step ≠ .links (.failOpen name true)) (hcalm : d.service.Unhurried) :
    ∃ x', (d.after step).At p x' := by
  have hrests : ∀ {a : Act}, d.service.Admits a.move → a ≠ .exit → a ≠ .task .dispatcher →
      d.service.said a.move = [] → (d.service.act a).watch = d.service.watch →
      d.service.station.registry.SameLayout (d.service.act a).station.registry →
      ∃ x', { d with service := d.service.act a }.At p x' := fun hadmits hexit hother hsaid hwatch
      hsame => ⟨x, h.act hadmits (h.serving.live.act hexit fun heq => absurd heq hother) hsaid
        hwatch hsame⟩
  cases step with
  | task task =>
    cases task with
    | script => exact h.script hp
    | service task =>
      cases task with
      | dispatcher => exact h.dispatcher hp hcalm
      | watch => exact h.watcher
      | client k =>
        refine hrests (a := .task (.client k)) trivial nofun nofun rfl
          (Service.watch_step nofun) ?_
        show d.service.station.registry.SameLayout
          (if d.service.clientReady k then d.service.clientStep k else d.service).station.registry
        split_ifs
        · rw [(Service.spares_clientStep k).1]
          exact .refl _
        · exact .refl _
      | station task =>
        exact hrests (a := .task (.station task)) trivial nofun nofun rfl
          (Service.watch_step nofun)
          (Station.sameLayout_step h.serving.tended.consistent.ranked task)
  | links use =>
    exact hrests (a := .links use) trivial nofun nofun rfl rfl
      (.use fun name heq => hopens name (heq ▸ rfl))
  | pass ms => exact hrests (a := .pass ms) trivial nofun nofun rfl rfl (.refl _)

end At

namespace At

/-- **Who is answered** learns that its request was met. -/
theorem answered (h : d.At p x) {k : Nat} {answer : Answer}
    (hanswer : d.service.client k = .answered answer) : answer = .ok (.done (.ok ())) := by
  have hidle : ∀ {k}, d.service.Standing k [] → d.service.client k ≠ .answered answer := by
    intro k hk heq
    obtain ⟨-, -, q, ⟨reply, -, hnone⟩ | ⟨entered, -, hnone⟩⟩ := hk.of_answered heq <;> cases hnone
  have hmade : ∀ {k q met}, d.service.Standing k (Request.words q met) →
      d.service.client k = .answered answer → answer = .ok (.done (.ok ())) := by
    intro k q met hk heq
    obtain ⟨hmet, hunmet⟩ := Service.client_of_words hk (h.serving.heard k)
    cases met with
    | true => exact ClientPhase.answered.inj (heq.symm.trans (hmet rfl))
    | false => exact absurd heq (hunmet rfl answer)
  have hk : k = Service.operator ∨ k = Service.watcher := by
    by_contra hother
    have hle : d.service.clients.length ≤ k := by
      rw [h.serving.clients]
      unfold Service.operator Service.watcher at hother
      omega
    rw [Service.client, List.getElem?_eq_none hle] at hanswer
    cases hanswer
  rcases hk with rfl | rfl
  · have hoperator := h.serving.operator
    cases herrand : x.errand <;> rw [herrand] at hoperator
    case adding => exact hmade hoperator hanswer
    case disabling => exact hmade hoperator hanswer
    all_goals exact absurd hanswer (hidle hoperator)
  · have hwatcher := h.serving.watcher
    unfold Progress.reportWords at hwatcher
    cases hreport : x.report <;> rw [hreport] at hwatcher
    case none => exact absurd hanswer (hidle hwatcher)
    case some => exact hmade hwatcher hanswer

/-- **The script does not fail.** -/
theorem unfailed (h : d.At p x) (e : Error) : d.phase ≠ .failed e := by
  intro hphase
  have hshows := h.shows
  rw [hphase] at hshows
  cases herrand : x.errand <;> rw [herrand] at hshows
  case none => rcases hshows with hnot | ⟨hnot, -⟩ <;> cases hnot
  all_goals cases hshows

/-- **Where nothing is left to be said**, all ports were told of, and those that are to be heard
of reported up, in their order. -/
theorem settled (h : d.At p x) (hs : d.Settled) :
    d.service.station.registry.LaidOut p.settings.enabled p.ports [] (Plan.audible p.ports) := by
  have hshows := h.shows
  rw [hs.done] at hshows
  have hnoticed : x.noticed = [] := by
    have hitems := h.watch.items
    rw [hs.items] at hitems
    exact List.map_eq_nil_iff.1 hitems.symm
  have hreport : x.report = none := by
    have hpending := h.watch.pending
    rw [hs.pending] at hpending
    exact Option.map_eq_none_iff.1 hpending.symm
  have hlaid := h.laidOut
  have hplanned := h.planned
  have hreported := h.reported
  rw [Progress.asked, hreport, hnoticed, List.append_nil, Option.elim_none, List.append_nil]
    at hreported
  cases herrand : x.errand with
  | none =>
    rw [herrand] at hshows hlaid hplanned
    obtain hnot | ⟨-, hpending⟩ := hshows
    · cases hnot
    · rw [hpending, Errand.entries, List.append_nil, List.append_nil] at hplanned
      rw [hplanned, Plan.audible, hreported]
      exact hlaid
  | _ =>
    rw [herrand] at hshows
    cases hshows

end At

/-- **After whatever has happened**, start-up has come to some point, the clock shows how long it
has taken, and if no frame has arrived, none is there to be read. -/
theorem at_run (p : Plan) (hp : (p.ports.map (·.1.ifIndex)).Nodup) (steps : List Step)
    (hopens : ∀ name, .links (.failOpen name true) ∉ steps) (hcalm : Calm steps) :
    (∃ x, ((ofPlan p).run steps).At p x) ∧
      ((ofPlan p).run steps).service.station.now = elapsed steps ∧
      ((∀ name frames, .links (.inject name frames) ∉ steps) →
        ((ofPlan p).run steps).service.station.Silent) := by
  induction steps using List.reverseRecOn with
  | nil => exact ⟨⟨{}, .ofPlan p⟩, rfl, fun _ => .ofSettings p.settings⟩
  | append_singleton steps step ih =>
    have hmem : ∀ {step'}, step' ∉ steps ++ [step] → step' ∉ steps ∧ step ≠ step' := by
      intro step' hnot
      rw [List.mem_append, List.mem_singleton, not_or] at hnot
      exact ⟨hnot.1, fun heq => hnot.2 heq.symm⟩
    have hsum : elapsed (steps ++ [step]) = elapsed steps + step.elapsed := List.foldl_concat ..
    have hbefore : Calm steps := by
      rcases hcalm with hnone | htime
      · exact Or.inl fun name frames => (hmem (hnone name frames)).1
      · exact Or.inr (by omega)
    obtain ⟨⟨x, hx⟩, hnow, hsilent⟩ := ih (fun name => (hmem (hopens name)).1) hbefore
    have hunhurried : ((ofPlan p).run steps).service.Unhurried := by
      rcases hbefore with hnone | htime
      · exact Or.inl (hsilent hnone).items
      · refine Or.inr ?_
        rw [hnow]
        exact htime
    obtain ⟨x', hx'⟩ := hx.after hp (fun name => (hmem (hopens name)).2) hunhurried
    have hrun : (ofPlan p).run (steps ++ [step]) = ((ofPlan p).run steps).after step :=
      List.foldl_concat ..
    rw [hrun]
    refine ⟨⟨x', hx'⟩, ?_, fun hnone => ?_⟩
    · rw [now_after, hnow, hsum]
    · exact silent_after (hsilent fun name frames => (hmem (hnone name frames)).1)
        hx.serving.tended hx'.serving.live fun name frames => (hmem (hnone name frames)).2

/-- **Start-up comes out the same** in whatever order things happen.  Of a configuration that
makes sense, no request fails; and when all has been said, ports are as configured. -/
theorem starts_as_configured (c : Config) (steps : List Step) (hvalid : c.validate = .ok ())
    (hopens : ∀ name, .links (.failOpen name true) ∉ steps) (hcalm : Calm steps) :
    ∃ p : Plan, c.settings = .ok p.settings ∧ c.portList = .ok p.ports ∧
      (∀ e, ((ofPlan p).run steps).phase ≠ .failed e) ∧
      (∀ k answer, ((ofPlan p).run steps).service.client k = .answered answer →
        answer = .ok (.done (.ok ()))) ∧
      (((ofPlan p).run steps).Settled →
        ((ofPlan p).run steps).service.station.registry.StartedAs c) := by
  rw [Config.validate] at hvalid
  cases htiming : c.timing with
  | error e =>
    rw [htiming] at hvalid
    cases hvalid
  | ok timing =>
    rw [htiming] at hvalid
    dsimp only at hvalid
    split_ifs at hvalid
    obtain ⟨ports, hports, hplans, hnodup, -⟩ := Config.planned_of_validatePorts hvalid
    have hsettings : c.settings = .ok
        { enabled := c.global.enabled
          timing
          capture := c.capture
          capacity := c.global.capacity } := by
      rw [Config.settings, htiming]
    refine ⟨⟨_, ports⟩, hsettings, hports, ?_⟩
    have hindexes : c.ports.map (·.ifIndex) = ports.map (·.1.ifIndex) :=
      Config.map_planned hplans fun _ _ hp => hp.data.1.symm
    obtain ⟨⟨x, hx⟩, -, -⟩ := at_run ⟨_, ports⟩ (hindexes ▸ hnodup) steps hopens hcalm
    exact ⟨hx.unfailed, fun k answer => hx.answered, fun hs =>
      (hx.settled hs).startedAs hplans hnodup⟩

/-- Two ports, the second of which is to be silent. -/
def twoPorts : Config where
  ports :=
    [{ ifIndex := 1, name := "a", mac := "02:00:00:00:00:01" },
     { ifIndex := 2, name := "b", mac := "02:00:00:00:00:02", enabled := false }]

/-- The first port is reported up between the registering and the disabling of the second. -/
def interleaved : List Step :=
  [.task .script, .task (.service .dispatcher), .task .script, .task .script,
   .task (.service .watch), .task (.service .dispatcher), .task (.service .dispatcher),
   .task .script, .task (.service .watch), .task (.service .dispatcher), .task .script,
   .task .script]

theorem starts_as_configured_interleaved :
    twoPorts.validate = .ok () ∧ (∀ name, .links (.failOpen name true) ∉ interleaved) ∧
      Calm interleaved ∧ ∃ p : Plan, ((ofPlan p).run interleaved).Settled ∧
        ((ofPlan p).run interleaved).service.station.registry.StartedAs twoPorts := by
  have hvalid : twoPorts.validate = .ok () := by rfl
  have hopens : ∀ name, .links (.failOpen name true) ∉ interleaved := by
    simp [interleaved]
  have hcalm : Calm interleaved := Or.inl (by simp [interleaved])
  obtain ⟨p, hsettings, hports, -, -, hstarted⟩ :=
    starts_as_configured twoPorts interleaved hvalid hopens hcalm
  have hsettled : ((ofPlan p).run interleaved).Settled := by
    obtain ⟨settings, ports⟩ := p
    obtain rfl := Except.ok.inj hsettings
    obtain rfl := Except.ok.inj hports
    exact ⟨by rfl, by rfl, by rfl⟩
  exact ⟨hvalid, hopens, hcalm, p, hsettled, hstarted hsettled⟩

end Daemon

end Lldp
