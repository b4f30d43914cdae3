/-
# How far start-up has come

The script tells the service of one port after another, and leaves word of those that are to
be heard of with the link-state controller, which reports them up, one after another, in its
own time.  So however the two are interleaved, start-up has come to some point
(`Progress`): the script is done with the first ports and has an errand to run for the next
at the most, and of the ports that it has left word of, the controller has seen the first to
their reports, has one report under way at the most, and has yet to look at the others.

`Daemon.At` says what a daemon is like that has come to such a point: where the script and
the controller stand, what lies in the mailbox between them, and how the ports are laid out.
From one such point the dispatcher (`At.dispatcher`), the controller (`At.watcher`) and the
script (`At.script`) each lead to another, and nothing else does any more than leave the
daemon where it is (`At.act`).
-/

import Lldp.Daemon
import Lldp.Proofs.Startup.Serving
import Lldp.Proofs.Station.Silence

namespace Lldp

/-- The word that a port is up. -/
def Port.upNotice (p : Port) : Notification := { ifIndex := p.ifIndex, state := LinkState.up.text }

theorem Port.interpret_upNotice (p : Port) :
    LinkController.interpret p.upNotice = .ok (p.ifIndex, .up) := by
  have hword : LinkState.parse LinkState.up.text = .ok .up := by decide
  rw [LinkController.interpret, upNotice, hword]

/-- What has passed over a request that was made, and met or not. -/
def Request.words (q : Request) (met : Bool) : List Word :=
  .asks q :: if met then [.met q (.done (.ok ()))] else []

/-- Where no more was said than that a request was made, it is this one and was not met. -/
theorem Request.of_words {q q' : Request} {met : Bool} (h : q.words met = [.asks q']) :
    q = q' ∧ met = false := by
  cases met with
  | false =>
    obtain ⟨hasks, -⟩ := List.cons.inj h
    exact ⟨Word.asks.inj hasks, rfl⟩
  | true => cases (List.cons.inj h).2

/-- **Whose request is met has its answer**, and whose is not has none. -/
theorem Service.client_of_words {s : Service} {k : Nat} {q : Request} {met : Bool}
    (h : s.Standing k (q.words met)) (hheard : ∀ e, s.client k ≠ .answered (.error e)) :
    (met = true → s.client k = .answered (.ok (.done (.ok ())))) ∧
      (met = false → ∀ answer, s.client k ≠ .answered answer) := by
  cases met with
  | true =>
    refine ⟨fun _ => ?_, nofun⟩
    cases h with
    | met hphase => exact hphase
  | false =>
    refine ⟨nofun, fun _ answer hanswer => ?_⟩
    cases h with
    | sending hphase => cases hphase.symm.trans hanswer
    | awaiting hphase => cases hphase.symm.trans hanswer
    | closed hphase => exact hheard _ hphase

/-- What the script has in hand. -/
inductive Errand where
  | none
  /-- A port is being registered. -/
  | adding (port : Port) (enabled met : Bool)
  /-- A port is being disabled. -/
  | disabling (port : Port) (met : Bool)
  /-- There is no room to leave word of a port. -/
  | reporting (port : Port)

namespace Errand

/-- What has passed over it between the script and the service. -/
def words : Errand → List Word
  | adding p _ met => Request.words (.add p) met
  | disabling p met => Request.words (.apply (.portEnable p.ifIndex false)) met
  | _ => []

/-- The port that it is about. -/
def entries : Errand → List (Port × Bool)
  | none => []
  | adding p enabled _ => [(p, enabled)]
  | disabling p _ => [(p, false)]
  | reporting p => [(p, true)]

/-- How that port is laid out. -/
def begun : Errand → List Layout
  | none => []
  | adding p _ met => if met then [{ port := p }] else []
  | disabling p met => [{ port := p, enabled := !met }]
  | reporting p => [{ port := p }]

/-- The word for which there is no room. -/
def waiting : Errand → List (Nat × Notification)
  | reporting p => [(Daemon.scriptClient, p.upNotice)]
  | _ => []

/-- How the script shows it that has these ports still to register. -/
def Shows (phase : ScriptPhase) (pending : List (Port × Bool)) : Errand → Prop
  | none => phase = .registering ∨ phase = .done ∧ pending = []
  | adding p enabled _ => phase = .adding p enabled
  | disabling _ _ => phase = .disabling
  | reporting _ => phase = .reporting

end Errand

/-- How far start-up has come. -/
structure Progress where
  /-- The ports that the script is done with. -/
  told : List (Port × Bool) := []
  errand : Errand := .none
  /-- The ports whose reports have been met. -/
  raised : List Port := []
  /-- The port whose report is under way, and whether it has been met. -/
  report : Option (Port × Bool) := none
  /-- The ports that the controller has yet to look at. -/
  noticed : List Port := []

namespace Progress

/-- What has passed between the controller and the service over the report. -/
def reportWords (x : Progress) : List Word :=
  x.report.elim [] fun r => Request.words (.reportLink r.1.ifIndex .up) r.2

/-- The port whose report has yet to be met. -/
def asked (x : Progress) : List Port := x.report.elim [] fun r => if r.2 then [] else [r.1]

end Progress

/-- **A controller** that has a report under way, notifications to look at, and one more for
which there is no room. -/
structure LinkWatch.Follows (x : Progress) (w : LinkWatch) : Prop where
  items : w.notices.items = x.noticed.map Port.upNotice
  waiting : w.notices.waiting = x.errand.waiting
  unclosed : w.notices.closed = false
  unsealed : w.sealed = false
  pending : w.pending = x.report.map fun r => (r.1.ifIndex, .up)
  staying : w.exiting = false
  alive : w.alive = true

namespace Daemon

/-- **A daemon that has come so far.** -/
structure At (p : Plan) (x : Progress) (d : Daemon) : Prop where
  planned : p.ports = x.told ++ x.errand.entries ++ d.pending
  shows : x.errand.Shows d.phase d.pending
  reported : (x.told.filter (·.2)).map (·.1) = x.raised ++ x.asked ++ x.noticed
  serving : d.service.Serving x.errand.words x.reportWords
  watch : d.service.watch.Follows x
  laidOut : d.service.station.registry.LaidOut p.settings.enabled x.told x.errand.begun x.raised

variable {p : Plan} {x : Progress} {d : Daemon}

namespace At

theorem distinct (h : d.At p x) : d.service.station.registry.Distinct := by
  obtain ⟨starts, horder⟩ := h.serving.tended.consistent.ordered
  exact horder.distinct

/-- A port that is reported was told of, and not disabled. -/
theorem mem_told (h : d.At p x) {q : Port} (hq : q ∈ x.raised ++ x.asked ++ x.noticed) :
    (q, true) ∈ x.told := by
  rw [← h.reported] at hq
  obtain ⟨⟨r, on⟩, hr, rfl⟩ := List.mem_map.1 hq
  obtain ⟨hmem, hon⟩ := List.mem_filter.1 hr
  obtain rfl : on = true := hon
  exact hmem

theorem mem_told_of_raised (h : d.At p x) : ∀ q ∈ x.raised, (q, true) ∈ x.told := fun _ hq =>
  h.mem_told (List.mem_append_left _ (List.mem_append_left _ hq))

/-- Nothing is said twice of a port. -/
theorem nodup (h : d.At p x) (hp : (p.ports.map (·.1.ifIndex)).Nodup) :
    (x.raised ++ x.asked ++ x.noticed).Nodup := by
  rw [h.planned, List.append_assoc, List.map_append] at hp
  have htold : (x.told.map (·.1)).Nodup := by
    refine List.Nodup.of_map Port.ifIndex ?_
    rw [List.map_map]
    exact (List.nodup_append.1 hp).1
  rw [← h.reported]
  exact htold.sublist (List.filter_sublist.map _)

/-- The port of the errand is not one that was told of. -/
theorem notMem_told (h : d.At p x) (hp : (p.ports.map (·.1.ifIndex)).Nodup) {q : Port} {on : Bool}
    (hq : (q, on) ∈ x.errand.entries ++ d.pending) : q.ifIndex ∉ x.told.map (·.1.ifIndex) := by
  intro hmem
  rw [h.planned, List.append_assoc, List.map_append, List.nodup_append] at hp
  exact hp.2.2 _ hmem _ (List.mem_map_of_mem hq) rfl

theorem notMem_raised (h : d.At p x) (hp : (p.ports.map (·.1.ifIndex)).Nodup) {q : Port}
    {on : Bool} (hq : (q, on) ∈ x.errand.entries) : q ∉ x.raised := fun hmem =>
  h.notMem_told hp (List.mem_append_left _ hq) (List.mem_map_of_mem (h.mem_told_of_raised q hmem))

/-! ### What is no progress -/

/-- Nothing is said, and ports stay as they are laid out. -/
theorem act (h : d.At p x) {a : Act} (hadmits : d.service.Admits a.move)
    (hlive : (d.service.act a).Live) (hsaid : d.service.said a.move = [])
    (hwatch : (d.service.act a).watch = d.service.watch)
    (hsame : d.service.station.registry.SameLayout (d.service.act a).station.registry) :
    { d with service := d.service.act a }.At p x where
  planned := h.planned
  shows := h.shows
  reported := h.reported
  serving := h.serving.act_of_said hadmits hlive hsaid
  watch := by
    rw [hwatch]
    exact h.watch
  laidOut := h.laidOut.same hsame

/-! ### The dispatcher -/

/-- The errand of the script gets on. -/
theorem errand (h : d.At p x) {e : Errand} {s : Service} (hentries : e.entries = x.errand.entries)
    (hshows : e.Shows d.phase d.pending) (hwaiting : e.waiting = x.errand.waiting)
    (hserving : s.Serving e.words x.reportWords) (hwatch : s.watch = d.service.watch)
    (hlaid : s.station.registry.LaidOut p.settings.enabled x.told e.begun x.raised) :
    { d with service := s }.At p { x with errand := e } where
  planned := by
    rw [hentries]
    exact h.planned
  shows := hshows
  reported := h.reported
  serving := hserving
  watch := by
    rw [hwatch]
    exact { h.watch with waiting := h.watch.waiting.trans hwaiting.symm }
  laidOut := hlaid

/-- **The dispatcher meets what the script asks.** -/
theorem meets_script (h : d.At p x) (hp : (p.ports.map (·.1.ifIndex)).Nodup) {q : Request}
    (hwords : x.errand.words = [.asks q])
    (hstation : (d.service.act (.task .dispatcher)).station.registry =
      (d.service.station.registry.execute q).2)
    (hserving : (d.service.act (.task .dispatcher)).Serving
      [.asks q, .met q (d.service.station.registry.execute q).1] x.reportWords) :
    ∃ x', { d with service := d.service.act (.task .dispatcher) }.At p x' := by
  have hwatch : (d.service.act (.task .dispatcher)).watch = d.service.watch :=
    Service.watch_step (by simp)
  obtain ⟨told, errand, raised, report, noticed⟩ := x
  cases errand with
  | none => cases hwords
  | reporting port => cases hwords
  | adding port on met =>
    obtain ⟨rfl, rfl⟩ := Request.of_words hwords
    obtain ⟨hok, hlaid⟩ := h.laidOut.add (p := port)
      (h.notMem_told hp (List.mem_append_left _ (List.mem_singleton_self (port, on))))
    have hreply : (d.service.station.registry.execute (.add port)).1 = .done (.ok ()) :=
      congrArg Reply.done hok
    rw [hreply] at hserving
    exact ⟨_, h.errand (e := .adding port on true) rfl h.shows rfl hserving hwatch
      (hstation ▸ hlaid)⟩
  | disabling port met =>
    obtain ⟨rfl, rfl⟩ := Request.of_words hwords
    obtain ⟨hok, hlaid⟩ := h.laidOut.disable h.distinct h.mem_told_of_raised
    have hreply : (d.service.station.registry.execute
        (.apply (.portEnable port.ifIndex false))).1 = .done (.ok ()) := congrArg Reply.done hok
    rw [hreply] at hserving
    exact ⟨_, h.errand (e := .disabling port true) rfl h.shows rfl hserving hwatch
      (hstation ▸ hlaid)⟩

/-- **The dispatcher meets a report.** -/
theorem meets_report (h : d.At p x) (hp : (p.ports.map (·.1.ifIndex)).Nodup) {q : Request}
    (hwords : x.reportWords = [.asks q])
    (hstation : (d.service.act (.task .dispatcher)).station.registry =
      (d.service.station.registry.execute q).2)
    (hserving : (d.service.act (.task .dispatcher)).Serving x.errand.words
      [.asks q, .met q (d.service.station.registry.execute q).1]) :
    ∃ x', { d with service := d.service.act (.task .dispatcher) }.At p x' := by
  have hwatch : (d.service.act (.task .dispatcher)).watch = d.service.watch :=
    Service.watch_step (by simp)
  obtain ⟨told, errand, raised, report, noticed⟩ := x
  cases report with
  | none => cases hwords
  | some r =>
    obtain ⟨port, met⟩ := r
    obtain ⟨rfl, rfl⟩ := Request.of_words hwords
    have hmem : port ∈ raised ++ [port] ++ noticed :=
      List.mem_append_left _ (List.mem_append_right _ (List.mem_singleton_self port))
    have hnot : port ∉ raised := by
      have hnodup := h.nodup hp
      exact fun hold => (List.nodup_append.1 (List.nodup_append.1 hnodup).1).2.2 _ hold _
        (List.mem_singleton_self port) rfl
    obtain ⟨hok, hlaid⟩ := h.laidOut.raise h.distinct (h.mem_told hmem) h.mem_told_of_raised hnot
    have hreply : (d.service.station.registry.execute (.reportLink port.ifIndex .up)).1 =
        .done (.ok ()) := congrArg Reply.done hok
    rw [hreply] at hserving
    exact ⟨⟨told, errand, raised ++ [port], some (port, true), noticed⟩,
      { planned := h.planned
        shows := h.shows
        reported := by
          rw [h.reported]
          simp [Progress.asked]
        serving := hserving
        watch := by
          rw [hwatch]
          exact { h.watch with }
        laidOut := hstation ▸ hlaid }⟩

/-- **The dispatcher makes a step.** -/
theorem dispatcher (h : d.At p x) (hp : (p.ports.map (·.1.ifIndex)).Nodup)
    (hcalm : d.service.Unhurried) :
    ∃ x', { d with service := d.service.act (.task .dispatcher) }.At p x' := by
  cases hserves : d.service.serves? with
  | some request =>
    obtain ⟨k, q⟩ := request
    obtain ⟨hstation, ⟨-, hwords, hserving⟩ | ⟨-, hwords, hserving⟩⟩ := h.serving.meets hserves
    · exact h.meets_script hp hwords (by rw [hstation]) hserving
    · exact h.meets_report hp hwords (by rw [hstation]) hserving
  | none =>
    have hasked : d.service.commands.items = [] := by
      by_contra hne
      obtain ⟨first, rest, hitems⟩ := List.exists_cons_of_ne_nil hne
      simp [Service.serves?, h.serving.live.running, h.serving.live.staying, hitems] at hserves
    obtain ⟨hsame, hrunning⟩ :=
      Service.dispatch_unasked h.serving.live hasked hcalm h.laidOut.whole
    have hsaid : d.service.said (Act.task .dispatcher).move = [] := by
      rw [Act.move, Service.said, hserves]
      rfl
    refine ⟨x, h.act (a := .task .dispatcher) trivial (h.serving.live.act (by simp) fun _ => hrunning)
      hsaid (Service.watch_step (by simp)) ?_⟩
    show d.service.station.registry.SameLayout
      (if d.service.dispatcherReady then d.service.dispatch else d.service).station.registry
    split_ifs
    · exact hsame
    · exact .refl _

/-! ### The controller -/

/-- **The controller makes a step.** -/
theorem watcher (h : d.At p x) :
    ∃ x', { d with service := d.service.act (.task .watch) }.At p x' := by
  have hact : d.service.act (.task .watch) =
      if d.service.watchReady then d.service.watchStep else d.service := rfl
  obtain ⟨told, errand, raised, report, noticed⟩ := x
  cases report with
  | none =>
    have hpending : d.service.watch.pending = none := h.watch.pending
    cases noticed with
    | nil =>
      have hitems : d.service.watch.notices.items = [] := h.watch.items
      have hready : d.service.watchReady = false := by
        simp [Service.watchReady, hpending, hitems, h.watch.staying, h.watch.unsealed]
      rw [hact, hready]
      exact ⟨_, h⟩
    | cons port noticed =>
      have htake : d.service.watch.notices.take? = some (port.upNotice,
          { d.service.watch.notices with items := noticed.map Port.upNotice }) := by
        rw [Mailbox.take?, h.watch.items]
        rfl
      obtain ⟨hserving, hstation, hwatch⟩ := h.serving.reports hpending h.watch.alive
        h.watch.staying htake port.interpret_upNotice
      exact ⟨⟨told, errand, raised, some (port, false), noticed⟩,
        { planned := h.planned
          shows := h.shows
          reported := by
            rw [h.reported]
            simp [Progress.asked]
          serving := hserving
          watch := by
            rw [hwatch]
            exact { h.watch with items := rfl, pending := rfl }
          laidOut := by
            rw [hstation]
            exact h.laidOut }⟩
  | some r =>
    obtain ⟨port, met⟩ := r
    have hpending : d.service.watch.pending = some (port.ifIndex, .up) := h.watch.pending
    obtain ⟨hanswer, hnone⟩ :=
      Service.client_of_words h.serving.watcher (h.serving.heard _)
    cases met with
    | false =>
      have hready : d.service.watchReady = false := by
        simp only [Service.watchReady, hpending, h.watch.alive, Bool.true_and]
        split
        · exact absurd ‹_› (hnone rfl _)
        · rfl
      rw [hact, hready]
      exact ⟨_, h⟩
    | true =>
      obtain ⟨hserving, hstation, hwatch⟩ :=
        h.serving.concludes hpending h.watch.alive (hanswer rfl)
      exact ⟨⟨told, errand, raised, none, noticed⟩,
        { planned := h.planned
          shows := h.shows
          reported := h.reported
          serving := hserving
          watch := by
            rw [hwatch]
            exact { h.watch with pending := rfl }
          laidOut := by
            rw [hstation]
            exact h.laidOut }⟩

/-! ### The script -/

/-- **The script is done with a port**, and has left word of it if it is to be heard of. -/
theorem finish (h : d.At p x) (hp : (p.ports.map (·.1.ifIndex)).Nodup) (on : Bool) {port : Port}
    {s : Service} {box : Mailbox Nat Notification}
    (hentries : x.errand.entries = [(port, on)])
    (hbegun : x.errand.begun = [{ port := port, enabled := on }])
    (hserving : s.Serving [] x.reportWords) (hstation : s.station = d.service.station)
    (hwatch : s.watch = { d.service.watch with notices := box })
    (hitems : box.items = d.service.watch.notices.items ++ if on then [port.upNotice] else [])
    (hwaiting : box.waiting = []) (hclosed : box.closed = false) :
    { d with service := s, phase := .registering }.At p
      { x with
        told := x.told ++ [(port, on)]
        errand := .none
        noticed := x.noticed ++ if on then [port] else [] } where
  planned := by
    rw [h.planned, hentries]
    simp [Errand.entries]
  shows := Or.inl rfl
  reported := by
    rw [List.filter_append, List.map_append, h.reported]
    cases on <;> simp [Progress.asked]
  serving := hserving
  watch := by
    rw [hwatch]
    refine { h.watch with items := ?_, waiting := hwaiting, unclosed := hclosed }
    show box.items = _
    rw [hitems, h.watch.items, List.map_append]
    cases on <;> rfl
  laidOut := by
    have hlaid := h.laidOut
    rw [hbegun] at hlaid
    rw [hstation]
    exact hlaid.finish (h.notMem_raised hp (hentries ▸ List.mem_singleton_self _))

/-- **The script asks** for what its next errand is about. -/
theorem asks (h : d.At p x) {e : Errand} {s : Service} {q : Request} {phase : ScriptPhase}
    {rest : List (Port × Bool)} (hserving : s.Serving [] x.reportWords)
    (hstation : s.station = d.service.station) (hwatch : s.watch = d.service.watch)
    (hwords : e.words = [.asks q]) (hentries : e.entries ++ rest = x.errand.entries ++ d.pending)
    (hbegun : e.begun = x.errand.begun) (hshows : e.Shows phase rest)
    (hwaiting : e.waiting = x.errand.waiting) :
    (Daemon.mk (s.submit scriptClient q) rest phase).At p { x with errand := e } where
  planned := by
    rw [h.planned, List.append_assoc, List.append_assoc, hentries]
  shows := hshows
  reported := h.reported
  serving := by
    rw [hwords]
    exact hserving.submit q
  watch := by
    have hsame : (s.submit scriptClient q).watch = d.service.watch :=
      (Service.watch_submit _ _).trans hwatch
    rw [hsame]
    exact { h.watch with waiting := h.watch.waiting.trans hwaiting.symm }
  laidOut := by
    rw [(Service.spares_submit scriptClient q).1, hstation, hbegun]
    exact h.laidOut

/-- **The script begins with the next port**, if there is one. -/
theorem begins (h : d.At p x) (herrand : x.errand = .none) (hphase : d.phase = .registering) :
    ∃ x', d.scriptStep.At p x' := by
  cases hpending : d.pending with
  | nil =>
    have hstep : d.scriptStep = { d with phase := .done } := by
      simp [scriptStep, hphase, hpending]
    rw [hstep]
    refine ⟨x, h.planned, ?_, h.reported, h.serving, h.watch, h.laidOut⟩
    rw [herrand]
    exact Or.inr ⟨rfl, hpending⟩
  | cons entry rest =>
    obtain ⟨port, on⟩ := entry
    have hstep : d.scriptStep =
        { d with pending := rest, phase := .adding port on }.ask (.add port) := by
      simp [scriptStep, hphase, hpending]
    have hidle := h.serving
    rw [herrand] at hidle
    rw [hstep]
    refine ⟨{ x with errand := .adding port on false },
      h.asks (e := .adding port on false) hidle rfl rfl rfl ?_ ?_ rfl ?_⟩ <;> rw [herrand]
    · rw [hpending]
      rfl
    · rfl
    · rfl

/-- **The script leaves word of a port** that was registered, or waits for room. -/
theorem reports (h : d.At p x) (hp : (p.ports.map (·.1.ifIndex)).Nodup) {port : Port}
    (herrand : x.errand = .adding port true true)
    (hserving : (d.service.setClient scriptClient .idle).Serving [] x.reportWords) :
    ∃ x', (d.taken.report port).At p x' := by
  have hunclosed : d.service.watch.notices.closed = false := h.watch.unclosed
  have hwaiting : d.service.watch.notices.waiting = [] := by
    rw [h.watch.waiting, herrand]
    rfl
  cases hroom : d.service.watch.notices.hasSpareRoom with
  | true =>
    have hsend : d.taken.service.watch.notices.send scriptClient port.upNotice =
        .sent (d.service.watch.notices.push port.upNotice) := by
      show d.service.watch.notices.send scriptClient port.upNotice = _
      simp [Mailbox.send, hunclosed, hroom]
    have hreport : d.taken.report port =
        { d with
          service := { d.service.setClient scriptClient .idle with watch := { d.service.watch with
            notices := d.service.watch.notices.push port.upNotice } }
          phase := .registering } := by
      rw [report]
      dsimp only
      rw [← Port.upNotice, hsend]
      rfl
    rw [hreport]
    exact ⟨_, h.finish hp true (by rw [herrand]; rfl) (by rw [herrand]; rfl)
      (hserving.of_watch rfl) rfl rfl rfl hwaiting hunclosed⟩
  | false =>
    have hsend : d.taken.service.watch.notices.send scriptClient port.upNotice =
        .blocked { d.service.watch.notices with waiting := [(scriptClient, port.upNotice)] } := by
      show d.service.watch.notices.send scriptClient port.upNotice = _
      simp [Mailbox.send, hunclosed, hroom, hwaiting]
    have hreport : d.taken.report port =
        { d with
          service := { d.service.setClient scriptClient .idle with watch := { d.service.watch with
            notices := { d.service.watch.notices with
              waiting := [(scriptClient, port.upNotice)] } } }
          phase := .reporting } := by
      rw [report]
      dsimp only
      rw [← Port.upNotice, hsend]
      rfl
    have hplanned := h.planned
    have hlaid := h.laidOut
    rw [herrand] at hplanned hlaid
    rw [hreport]
    exact ⟨{ x with errand := .reporting port },
      { planned := hplanned
        shows := rfl
        reported := h.reported
        serving := hserving.of_watch rfl
        watch := { h.watch with waiting := rfl }
        laidOut := hlaid }⟩

/-- **The script makes a step.** -/
theorem script (h : d.At p x) (hp : (p.ports.map (·.1.ifIndex)).Nodup) :
    ∃ x', (d.step .script).At p x' := by
  have hdef : d.step .script = if d.scriptReady then d.scriptStep else d := rfl
  have hanswered : ∀ {q met}, x.errand.words = Request.words q met →
      (met = true → d.outcome? = some (.ok ()) ∧
        (d.service.setClient scriptClient .idle).Serving [] x.reportWords) ∧
      (met = false → d.outcome? = none) := by
    intro q met hwords
    obtain ⟨hanswer, hnone⟩ := Service.client_of_words (hwords ▸ h.serving.operator)
      (h.serving.heard _)
    refine ⟨fun hmet => ⟨?_, h.serving.collect (hanswer hmet)⟩, fun hmet => ?_⟩
    · rw [outcome?, show d.service.client scriptClient = _ from hanswer hmet]
      rfl
    · unfold outcome?
      split
      · exact absurd ‹_› (hnone hmet _)
      · rfl
  have hshows := h.shows
  cases herrand : x.errand with
  | none =>
    rw [herrand] at hshows
    rcases hshows with hphase | ⟨hphase, -⟩
    · rw [hdef]
      split_ifs
      · exact h.begins herrand hphase
      · exact ⟨x, h⟩
    · have hready : d.scriptReady = false := by rw [scriptReady, hphase]
      rw [hdef, hready]
      exact ⟨x, h⟩
  | adding port on met =>
    rw [herrand] at hshows hanswered
    have hphase : d.phase = .adding port on := hshows
    obtain ⟨hmet, hunmet⟩ := hanswered rfl
    cases met with
    | false =>
      have hready : d.scriptReady = false := by rw [scriptReady, hphase, hunmet rfl]; rfl
      rw [hdef, hready]
      exact ⟨x, h⟩
    | true =>
      obtain ⟨houtcome, hserving⟩ := hmet rfl
      have hready : d.scriptReady = true := by rw [scriptReady, hphase, houtcome]; rfl
      rw [hdef, if_pos hready]
      cases on with
      | true =>
        have hstep : d.scriptStep = d.taken.report port := by
          simp [scriptStep, hphase, houtcome]
        rw [hstep]
        exact h.reports hp herrand hserving
      | false =>
        have hstep : d.scriptStep = { d.taken with phase := .disabling }.ask
            (.apply (.portEnable port.ifIndex false)) := by
          simp [scriptStep, hphase, houtcome]
        rw [hstep]
        refine ⟨{ x with errand := .disabling port false },
          h.asks (e := .disabling port false) hserving rfl rfl rfl ?_ ?_ rfl ?_⟩ <;>
            rw [herrand] <;> rfl
  | disabling port met =>
    rw [herrand] at hshows hanswered
    have hphase : d.phase = .disabling := hshows
    obtain ⟨hmet, hunmet⟩ := hanswered rfl
    cases met with
    | false =>
      have hready : d.scriptReady = false := by rw [scriptReady, hphase, hunmet rfl]; rfl
      rw [hdef, hready]
      exact ⟨x, h⟩
    | true =>
      obtain ⟨houtcome, hserving⟩ := hmet rfl
      have hready : d.scriptReady = true := by rw [scriptReady, hphase, houtcome]; rfl
      have hstep : d.scriptStep = { d.taken with phase := .registering } := by
        simp [scriptStep, hphase, houtcome]
      have hwaiting : d.service.watch.notices.waiting = [] := by
        rw [h.watch.waiting, herrand]
        rfl
      rw [hdef, if_pos hready, hstep]
      exact ⟨_, h.finish hp false (by rw [herrand]; rfl) (by rw [herrand]; rfl) hserving
        rfl rfl (List.append_nil _).symm hwaiting h.watch.unclosed⟩
  | reporting port =>
    rw [herrand] at hshows
    have hphase : d.phase = .reporting := hshows
    have hwaiting : d.service.watch.notices.waiting = [(scriptClient, port.upNotice)] := by
      rw [h.watch.waiting, herrand]
      rfl
    have hunclosed : d.service.watch.notices.closed = false := h.watch.unclosed
    have hserving := h.serving
    rw [herrand] at hserving
    have hsettle : d.service.watch.notices.settle scriptClient =
        (d.service.watch.notices.withdraw scriptClient).push port.upNotice :=
      Mailbox.settle_of_waiting (by rw [hwaiting]; rfl) hunclosed
    have hstep : d.scriptStep =
        { d with
          service := { d.service with watch := { d.service.watch with
            notices := (d.service.watch.notices.withdraw scriptClient).push port.upNotice } }
          phase := .registering } := by
      simp [scriptStep, hphase, hsettle, hunclosed]
    rw [hdef]
    split_ifs
    · rw [hstep]
      exact ⟨_, h.finish hp true (by rw [herrand]; rfl) (by rw [herrand]; rfl)
        (hserving.of_watch rfl) rfl rfl rfl (by
          show List.filter _ d.service.watch.notices.waiting = []
          rw [hwaiting]
          rfl) hunclosed⟩
    · exact ⟨x, h⟩

end At

end Daemon
end Lldp
