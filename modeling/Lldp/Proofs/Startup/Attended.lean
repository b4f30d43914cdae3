/-
# As long as the dispatcher is there

While a daemon runs its script, is used and is told to close down, the station of its service
has come about by what is in the routine of a station and the exit signal, as long as the
dispatcher is there; and once it is gone, nobody reads the requests to transmit
(`Service.Attended`, `Daemon.attended_undergo`).  So requests are read just while the
dispatcher is there (`Service.Attended.reads_iff`), and what is proved of every run of a
station holds of the station of every daemon until then.
-/

import Lldp.Proofs.Startup
import Lldp.Proofs.Station.AtRest
import Lldp.Proofs.Station.Lasting

namespace Lldp

/-! ### Who ends the dispatcher -/

namespace Service

variable {s s' : Service} {a : Act} {settings : Settings}

/-- **The dispatcher goes on**, or nobody reads the requests to transmit any more. -/
theorem running_dispatch (s : Service) :
    s.dispatch.running = s.running ∨ s.dispatch.station.registry.triggers.closed = true := by
  unfold dispatch
  split_ifs
  · exact Or.inr rfl
  cases s.commands.take? with
  | some item => exact Or.inl rfl
  | none =>
    cases s.station.inbound.take? with
    | some item =>
      dsimp only [deliver]
      split_ifs
      · exact Or.inr rfl
      · exact Or.inl rfl
    | none =>
      dsimp only
      cases s.station.registry.triggers.take? with
      | some item => exact Or.inl rfl
      | none =>
        dsimp only
        cases s.station.registry.expireNext? s.station.now <;> exact Or.inl rfl

/-- Nobody but the dispatcher stops reading requests. -/
theorem closed_act (h : a ≠ .task .dispatcher) :
    (s.act a).station.registry.triggers.closed = s.station.registry.triggers.closed := by
  by_cases hexit : a = .exit
  · subst hexit
    rfl
  rcases act_others (s := s) h hexit with ⟨heq, -⟩ | ⟨x, hx, heq, -⟩
  · rw [heq]
  · rw [heq]
    exact Station.closed_after (by rintro rfl; cases hx)

/-- **Nothing turns the clock back.** -/
theorem now_le_act (s : Service) (a : Act) : s.station.now ≤ (s.act a).station.now := by
  cases a with
  | task task => exact Nat.le_of_eq (step_keeps task s).2.symm
  | submit number request =>
    exact Nat.le_of_eq (congrArg Station.now (spares_submit number request).1.symm)
  | post notice =>
    show s.station.now ≤ (s.post notice).2.station.now
    unfold post
    split_ifs <;> exact Nat.le_refl _
  | pass ms => exact Nat.le_add_right _ ms
  | collect number => exact Nat.le_refl _
  | close => exact Nat.le_refl _
  | links use => exact Nat.le_refl _
  | exit => exact Nat.le_refl _

/-- While the dispatcher is there, the station has come about by what is in the routine of a
station and the exit signal; once it is gone, nobody reads the requests to transmit. -/
structure Attended (settings : Settings) (s : Service) : Prop where
  course : s.running = true → ∃ incidents,
    s.station = (Station.ofSettings settings).run incidents ∧
      ∀ x ∈ incidents, x.isRoutine = true ∨ x = .exit
  gone : s.running = false → s.station.registry.triggers.closed = true

namespace Attended

/-- What leaves the station and the dispatcher alone changes nothing in that. -/
theorem of_same (h : s.Attended settings) (hstation : s'.station = s.station)
    (hrunning : s'.running = s.running) : s'.Attended settings where
  course hr := by
    rw [hstation]
    exact h.course (hrunning.symm.trans hr)
  gone hr := by
    rw [hstation]
    exact h.gone (hrunning.symm.trans hr)

/-- A service begins with its dispatcher, and nothing has happened to its station. -/
theorem ofSettings (settings : Settings) : (ofSettings settings).Attended settings :=
  ⟨fun _ => ⟨[], rfl, nofun⟩, nofun⟩

/-- **Alarms are in order** while the dispatcher is there. -/
theorem alarmsAgree (h : s.Attended settings) (hrunning : s.running = true) :
    s.station.registry.AlarmsAgree := by
  obtain ⟨incidents, heq, hall⟩ := h.course hrunning
  rw [heq]
  exact Station.alarmsAgree_run (.ofSettings settings)
    (fun hmem => (hall _ hmem).elim nofun nofun) fun i hmem => (hall _ hmem).elim nofun nofun

/-- **Requests are read** just while the dispatcher is there. -/
theorem reads_iff (h : s.Attended settings) :
    s.station.registry.triggers.closed = false ↔ s.running = true := by
  constructor
  · intro hopen
    by_contra hended
    cases hopen.symm.trans (h.gone (Bool.eq_false_iff.2 hended))
  · intro hrunning
    obtain ⟨incidents, heq, hall⟩ := h.course hrunning
    rw [heq]
    clear heq
    induction incidents using List.reverseRecOn with
    | nil => rfl
    | append_singleton incidents x ih =>
      -- Only the end of the reader closes the mailbox, and that is not routine.
      have hclose : x ≠ .close := by
        rintro rfl
        exact (hall .close (by simp)).elim nofun nofun
      rw [Station.run_concat, Station.closed_after hclose]
      exact ih fun y hy => hall y (List.mem_append_left _ hy)

/-- **Whatever is done**, the station has come about by one incident more at the most, or the
dispatcher is gone. -/
theorem act (h : s.Attended settings) (a : Act) : (s.act a).Attended settings where
  course hrunning := by
    have hbefore := running_of_act hrunning
    obtain ⟨incidents, hrun, hall⟩ := h.course hbefore
    rcases act_running_cases (h.alarmsAgree hbefore) hrunning with heq | ⟨x, hx, heq⟩
    · exact ⟨incidents, heq.trans hrun, hall⟩
    · refine ⟨incidents ++ [x], ?_, ?_⟩
      · rw [Station.run_concat, ← hrun]
        exact heq
      · simpa [or_imp, forall_and] using ⟨hall, hx⟩
  gone hended := by
    by_cases hdispatcher : a = .task .dispatcher
    · subst hdispatcher
      have hstep : s.act (.task .dispatcher) = if s.dispatcherReady then s.dispatch else s := rfl
      rw [hstep] at hended ⊢
      split_ifs at hended ⊢ with hready
      · rcases s.running_dispatch with hsame | hclosed
        · cases hended.symm.trans (hsame.trans (running_of_dispatcherReady hready))
        · exact hclosed
      · exact h.gone hended
    · rw [closed_act hdispatcher]
      exact h.gone ((running_act hdispatcher).symm.trans hended)

end Attended
end Service

/-! ### Whatever happens to a daemon -/

namespace Daemon

variable {d : Daemon} {p : Plan} {i : IfIndex} {t : Ticker}

/-- What can happen to a daemon at once. -/
inductive Move where
  /-- The start-up script makes its next step, if it is able to. -/
  | script
  | act (a : Act)

/-- A daemon after a move. -/
def moved (d : Daemon) : Move → Daemon
  | .script => d.step .script
  | .act a => { d with service := d.service.act a }

/-- A daemon after several moves, the first of which comes first. -/
def undergo (d : Daemon) (moves : List Move) : Daemon := moves.foldl moved d

/-- What happens to a daemon may be cut in two. -/
theorem undergo_append (d : Daemon) (early late : List Move) :
    d.undergo (early ++ late) = (d.undergo early).undergo late :=
  List.foldl_append

/-- The script does not end the dispatcher. -/
theorem running_script (d : Daemon) : (d.step .script).service.running = d.service.running := by
  have hreport : ∀ port, (d.taken.report port).service.running = d.service.running := by
    intro port
    unfold report
    dsimp only
    split <;> rfl
  have hask : ∀ (d' : Daemon) q, (d'.ask q).service.running = d'.service.running := fun d' q =>
    Service.running_submit scriptClient q
  show (if d.scriptReady then d.scriptStep else d).service.running = _
  split_ifs
  · unfold scriptStep
    split
    · split
      · rfl
      · exact hask _ _
    · split
      · rfl
      · rfl
      · split_ifs
        · exact hreport _
        · exact hask _ _
    · split <;> rfl
    · rfl
    · rfl
    · rfl
  · rfl

/-- No move of a daemon turns the clock back. -/
theorem now_le_moved (d : Daemon) (m : Move) :
    d.service.station.now ≤ (d.moved m).service.station.now := by
  cases m with
  | script => exact Nat.le_of_eq (congrArg Station.now (station_script d).symm)
  | act a => exact d.service.now_le_act a

/-- So nothing that happens to it does. -/
theorem now_le_undergo (d : Daemon) (moves : List Move) :
    d.service.station.now ≤ (d.undergo moves).service.station.now := by
  induction moves generalizing d with
  | nil => exact Nat.le_refl _
  | cons m moves ih => exact (d.now_le_moved m).trans (ih (d.moved m))

/-- One move of a daemon is one of its service, or a step of the script, which leaves the station
alone. -/
theorem attended_moved {settings : Settings} (h : d.service.Attended settings) (m : Move) :
    (d.moved m).service.Attended settings := by
  cases m with
  | script => exact h.of_same (station_script d) (running_script d)
  | act a => exact h.act a

/-- **Whatever happens to a daemon**, requests are read as long as the dispatcher is there. -/
theorem attended_undergo (p : Plan) (moves : List Move) :
    ((ofPlan p).undergo moves).service.Attended p.settings := by
  induction moves using List.reverseRecOn with
  | nil => exact (Service.Attended.ofSettings p.settings).of_same rfl rfl
  | append_singleton moves m ih =>
    rw [undergo_append]
    exact attended_moved ih m

/-- A dispatcher that is there in the end was there all along. -/
theorem running_of_undergo {moves : List Move}
    (h : (d.undergo moves).service.running = true) : d.service.running = true := by
  induction moves generalizing d with
  | nil => exact h
  | cons m moves ih =>
    have hnext : (d.moved m).service.running = true := ih h
    cases m with
    | script => exact (running_script d).symm.trans hnext
    | act a => exact Service.running_of_act hnext

/-- What a move is to the station of a daemon whose dispatcher is there: nothing, or one
incident. -/
theorem moved_cases {settings : Settings} (h : d.service.Attended settings) {m : Move}
    (hrunning : (d.moved m).service.running = true) :
    (d.moved m).service.station = d.service.station ∨
      ∃ x, (d.moved m).service.station = d.service.station.after x := by
  cases m with
  | script => exact Or.inl (station_script d)
  | act a =>
    have hbefore := h.alarmsAgree (Service.running_of_act hrunning)
    rcases Service.act_running_cases hbefore hrunning with heq | ⟨x, -, heq⟩
    · exact Or.inl heq
    · exact Or.inr ⟨x, heq⟩

end Daemon
end Lldp
