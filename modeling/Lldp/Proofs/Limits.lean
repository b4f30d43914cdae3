/-
# Beyond what the runtime can count to

A configuration is accepted however large its numbers are, and so is other timing while the
daemon runs.  Two of the numbers meet a limit later.  A mailbox can have only so much room:
where it is asked for more, there is no daemon (`Daemon.ofPlan?_eq`), and start-up breaks down;
otherwise it ends in good order (`Startup.ofSource_eq`).  And the clock's source can count only
so far: a ticker whose first tick is later than that ends instead of beginning, while its port
stays captured and requests go on being read.  A run may begin with time passing, so it does
not matter what the clock's source shows at first.

Nothing else ends a ticker while requests are read (`Daemon.exists_overrun`), and they are
read while the dispatcher is there (`Service.Attended.reads_iff`).  So a daemon that has been
made keeps the ticker of every captured port going for as long as the clock can count to a
time one interval from now (`Daemon.ends_only_beyond_limits`).  What is accepted can be beyond
either limit (`Daemon.accepts_beyond_limits`).
-/

import Lldp.Proofs.Startup.Ending

namespace Lldp

/-! ### Room for the mailboxes -/

theorem Mailbox.ofCapacity?_eq {σ α : Type} [DecidableEq σ] {capacity : Nat} (h : 0 < capacity) :
    (ofCapacity? capacity : Option (Mailbox σ α)) =
      if capacity ≤ maxCapacity then some (.ofCapacity capacity) else none := by
  have hmax : max capacity 1 = capacity := Nat.max_eq_left h
  simp only [ofCapacity?, h, true_and, ofCapacity, hmax]

theorem Service.ofSettings?_eq {settings : Settings} (h : 0 < settings.capacity) :
    ofSettings? settings =
      if settings.capacity ≤ Mailbox.maxCapacity then some (.ofSettings settings) else none := by
  have hmax : max settings.capacity 1 = settings.capacity := Nat.max_eq_left h
  unfold ofSettings?
  simp only [hmax, Mailbox.ofCapacity?_eq h]
  split_ifs <;> rfl

/-- **A daemon can be made** if its mailboxes can have the room that is asked for. -/
theorem Daemon.ofPlan?_eq {p : Plan} (h : 0 < p.settings.capacity) :
    ofPlan? p =
      if p.settings.capacity ≤ Mailbox.maxCapacity then some (ofPlan p) else none := by
  unfold ofPlan?
  rw [Service.ofSettings?_eq h, Mailbox.ofCapacity?_eq h]
  split_ifs <;> rfl

/-- An accepted configuration makes a plan, with the room that is configured and no index
twice. -/
theorem Config.exists_plan {c : Config} (h : c.validate = .ok ()) :
    ∃ p : Plan, c.settings = .ok p.settings ∧ c.portList = .ok p.ports ∧
      p.settings.capacity = c.global.capacity ∧ 0 < c.global.capacity ∧
      (p.ports.map (·.1.ifIndex)).Nodup := by
  rw [validate_eq, verdict_eq_ok_iff, faults_eq_nil_iff] at h
  obtain ⟨timing, -, -, hsettings⟩ := h.settings_eq
  obtain ⟨ports, hports, hplans⟩ := planned h.readable
  have hindexes : c.ports.map (·.ifIndex) = ports.map (·.1.ifIndex) :=
    map_planned hplans fun _ _ hp => hp.data.1.symm
  exact ⟨⟨_, ports⟩, hsettings, hports, rfl, Nat.pos_of_ne_zero h.capacity, hindexes ▸ h.distinct⟩

/-- **Start-up breaks down** if there is no daemon, after the configuration was accepted.  Where
there is one, it registers the ports, and ends when it is told to close down. -/
theorem Startup.ofSource_eq {c : Config} {p : Plan} {source : ConfigSource}
    (hload : source.load = .ok c) (hvalid : c.validate = .ok ())
    (hsettings : c.settings = .ok p.settings) (hports : c.portList = .ok p.ports)
    (hpos : 0 < p.settings.capacity) (hp : (p.ports.map (·.1.ifIndex)).Nodup) :
    ofSource source = if p.settings.capacity ≤ Mailbox.maxCapacity then .served p.summary
      else .brokeDown p.summary := by
  have hplan : Plan.ofSource source = .ok p := by
    rw [Plan.ofSource, hload]
    simp only [hvalid, hsettings, hports]
  have hmake := Daemon.ofPlan?_eq hpos
  rw [ofSource, hplan]
  dsimp only
  split_ifs with hroom
  · rw [if_pos hroom] at hmake
    exact ofPlan_eq hp hmake
  · rw [if_neg hroom] at hmake
    rw [ofPlan, Daemon.boot?, hmake]
    rfl

/-! ### Tickers of a daemon -/

namespace Daemon

variable {d : Daemon} {p : Plan} {i : IfIndex} {t : Ticker}

/-- **A ticker that has ended** while requests are read could not begin: there was a time when
it was about to, and its first tick was beyond what the clock can count to.  The next move
was its end, and it is still there. -/
theorem exists_overrun {moves : List Move}
    (hopen : ((ofPlan p).undergo moves).service.station.registry.triggers.closed = false)
    (ht : ((ofPlan p).undergo moves).service.station.ticker? i = some t)
    (hended : t.phase = .finished) :
    ∃ early m late, moves = early ++ m :: late ∧
      ((ofPlan p).undergo early).service.station.ticker? i = some { t with phase := .starting } ∧
      Ticker.reachable (((ofPlan p).undergo early).service.station.now + t.period) = false ∧
      Trace.Always moved (·.service.station.ticker? i = some t)
        ((ofPlan p).undergo (early ++ [m])) late := by
  have hfirst : ¬(ofPlan p).service.station.ticker? i = some t := nofun
  obtain ⟨early, m, late, rfl, hnot, hsince⟩ := @Trace.exists_onset Daemon Move moved
    (·.service.station.ticker? i = some t) (ofPlan p) moves hfirst ht
  -- Who reads requests at the end read them all along.
  have hrunning := (attended_undergo p _).reads_iff.1 hopen
  rw [undergo_append] at hrunning
  have hthen : (((ofPlan p).undergo early).moved m).service.running = true :=
    @running_of_undergo (((ofPlan p).undergo early).moved m) late hrunning
  have hbefore : ((ofPlan p).undergo early).service.running = true :=
    @running_of_undergo ((ofPlan p).undergo early) (m :: late) hrunning
  have hattended := attended_undergo p early
  have hread := hattended.reads_iff.2 hbefore
  have hlast : (((ofPlan p).undergo early).moved m).service.station.ticker? i = some t := by
    have hfirst := hsince.first
    rw [List.foldl_append] at hfirst
    exact hfirst
  refine ⟨early, m, late, rfl, ?_⟩
  rcases moved_cases hattended hthen with heq | ⟨x, heq⟩
  · rw [heq] at hlast
    exact absurd hlast hnot
  · obtain ⟨incidents, hrun, -⟩ := hattended.course hbefore
    have hmoves : ((ofPlan p).undergo early).service.station.Moves x i := by
      rw [hrun]
      exact Station.moves_after (Station.tickersAgree_run _ _) (Station.inOrder_run _ _)
        (Station.ranked_run _ _) x i
    rw [heq] at hlast
    rcases hmoves.of_finished hread hlast hended with hsame | ⟨hstarting, hreach⟩
    · exact absurd hsame hnot
    · exact ⟨hstarting, hreach, hsince⟩

/-- **A captured port has a ticker**, of the interval in force, while requests are read. -/
theorem exists_ticker {moves : List Move}
    (hopen : ((ofPlan p).undergo moves).service.station.registry.triggers.closed = false)
    (hcaptured : ((ofPlan p).undergo moves).service.station.registry.isCapturing i = true) :
    ∃ t, ((ofPlan p).undergo moves).service.station.ticker? i = some t ∧ t.ifIndex = i ∧
      t.period =
        ((ofPlan p).undergo moves).service.station.registry.settings.timing.period := by
  have hattended := attended_undergo p moves
  obtain ⟨incidents, hrun, -⟩ := hattended.course (hattended.reads_iff.1 hopen)
  rw [hrun] at hcaptured ⊢
  exact Station.exists_ticker (Station.tickersAgree_run _ _) (Station.inOrder_run _ _)
    (Station.allCurrent_run _ _) hcaptured

/-- **An accepted configuration breaks down only beyond the runtime's limits.**  There is a
daemon if its mailboxes can have the configured room, and otherwise starting it breaks down.
Whatever happens to the daemon, while requests are read a captured port has a ticker, of the
interval in force, and it has ended only if the clock could not count to its first tick when
it was about to begin; the step with which it begins decides. -/
theorem ends_only_beyond_limits (c : Config) (hvalid : c.validate = .ok ()) :
    ∃ p : Plan, c.settings = .ok p.settings ∧ c.portList = .ok p.ports ∧
      (0 < c.global.capacity ∧ ofPlan? p =
        if c.global.capacity ≤ Mailbox.maxCapacity then some (ofPlan p) else none) ∧
      (∀ source : ConfigSource, source.load = .ok c → Startup.ofSource source =
        if c.global.capacity ≤ Mailbox.maxCapacity then .served p.summary
        else .brokeDown p.summary) ∧
      ∀ moves i,
        let st := ((ofPlan p).undergo moves).service.station
        let timing := st.registry.settings.timing
        st.registry.isCapturing i = true → st.registry.triggers.closed = false →
        ∃ t, st.ticker? i = some t ∧ t.ifIndex = i ∧ t.period = timing.period ∧
          (¬timing.Overruns st.now → t.phase ≠ .finished) ∧
          (t.phase = .finished → ∃ early m late, moves = early ++ m :: late ∧
            let before := ((ofPlan p).undergo early).service.station
            before.ticker? i = some { t with phase := .starting } ∧ timing.Overruns before.now ∧
            Trace.Always moved (·.service.station.ticker? i = some t)
              ((ofPlan p).undergo (early ++ [m])) late) ∧
          (t.phase = .starting → (st.step (.ticker i)).ticker? i = some { t with
            phase := if timing.Overruns st.now then .finished
              else .sleeping (st.now + timing.period) st.stamp }) := by
  obtain ⟨p, hsettings, hports, hcapacity, hpos, hp⟩ := Config.exists_plan hvalid
  rw [← hcapacity] at hpos ⊢
  refine ⟨p, hsettings, hports, ⟨hpos, ofPlan?_eq hpos⟩,
    fun source hload => Startup.ofSource_eq hload hvalid hsettings hports hpos hp, ?_⟩
  intro moves i st timing hcaptured hopen
  obtain ⟨t, ht, hown, hperiod⟩ := exists_ticker hopen hcaptured
  have hcause : t.phase = .finished → ∃ early m late, moves = early ++ m :: late ∧
      let before := ((ofPlan p).undergo early).service.station
      before.ticker? i = some { t with phase := .starting } ∧ timing.Overruns before.now ∧
      Trace.Always moved (·.service.station.ticker? i = some t)
        ((ofPlan p).undergo (early ++ [m])) late := by
    intro hended
    obtain ⟨early, m, late, hmoves, hstarting, hreach, hsince⟩ := exists_overrun hopen ht hended
    rw [hperiod, Ticker.reachable_add_period] at hreach
    exact ⟨early, m, late, hmoves, hstarting, hreach, hsince⟩
  refine ⟨t, ht, hown, hperiod, fun hwithin hended => ?_, hcause,
    Station.ticker?_step_of_starting ht hperiod⟩
  obtain ⟨early, m, late, rfl, -, hover, -⟩ := hcause hended
  have hle : ((ofPlan p).undergo early).service.station.now ≤ st.now := by
    show _ ≤ ((ofPlan p).undergo (early ++ m :: late)).service.station.now
    rw [undergo_append]
    exact now_le_undergo _ _
  exact hwithin (hover.mono hle)

/-- One port, which is to be heard of. -/
def onePort : Config where
  ports := [{ ifIndex := 1, name := "a", mac := "02:00:00:00:00:01" }]

/-- What is planned of it. -/
def onePlan (timing : Timing) : Plan where
  settings := { timing }
  ports := [({ ifIndex := 1, number := 0, name := "a", mac := ⟨2, 0, 0, 0, 0, 1⟩ }, true)]

/-- The port is registered, reported up and captured, and its ticker makes a step. -/
def begun : List Move :=
  [.script, .act (.task .dispatcher), .script, .act (.task .watch), .act (.task .dispatcher),
   .act (.task (.station (.ticker 1)))]

/-- Other timing is asked for and adopted, and the new ticker makes a step. -/
def retimed (interval : Nat) : List Move :=
  [.script, .act (.submit 0 (.apply (.timing interval 4))), .act (.task .dispatcher),
   .act (.task (.station (.ticker 1)))]

/-- The ticker of a captured port goes on until an interval is adopted that is beyond the
clock, and has then ended although the port is captured and requests are read. -/
theorem ends_only_beyond_limits_retimed :
    onePort.validate = .ok () ∧
      (((ofPlan (onePlan .standard)).undergo begun).service.station.ticker? 1).any
        Ticker.isRunning = true ∧
      let moves := begun ++ retimed (Nat.pow 2 63)
      let st := ((ofPlan (onePlan .standard)).undergo moves).service.station
      st.registry.isCapturing 1 = true ∧ st.registry.triggers.closed = false ∧
      ∃ t early m late, st.ticker? 1 = some t ∧ t.phase = .finished ∧
        moves = early ++ m :: late ∧
        ((ofPlan (onePlan .standard)).undergo early).service.station.ticker? 1 =
          some { t with phase := .starting } := by
  have hvalid : onePort.validate = .ok () := by rfl
  obtain ⟨p, hsettings, hports, -, -, hlasts⟩ := ends_only_beyond_limits onePort hvalid
  obtain rfl : p = onePlan .standard := by
    obtain ⟨settings, ports⟩ := p
    have hsettings' : onePort.settings = .ok (onePlan .standard).settings := by rfl
    have hports' : onePort.portList = .ok (onePlan .standard).ports := by rfl
    obtain rfl := Except.ok.inj (hsettings.symm.trans hsettings')
    obtain rfl := Except.ok.inj (hports.symm.trans hports')
    rfl
  refine ⟨hvalid, by decide +kernel, ?_⟩
  intro moves st
  have hcaptured : st.registry.isCapturing 1 = true := by decide +kernel
  have hopen : st.registry.triggers.closed = false := by decide +kernel
  obtain ⟨t, ht, -, -, -, hcause, -⟩ := hlasts moves 1 hcaptured hopen
  have hended : t.phase = .finished := by
    have hnot : (st.ticker? 1).any Ticker.isRunning = false := by decide +kernel
    have ht' : st.ticker? 1 = some t := ht
    rw [ht'] at hnot
    simpa [Ticker.isRunning] using hnot
  obtain ⟨early, m, late, hmoves, hstarting, -⟩ := hcause hended
  exact ⟨hcaptured, hopen, t, early, m, late, ht, hended, hmoves, hstarting⟩

/-- More room than a mailbox can have. -/
def roomy : Config := { global := { capacity := Nat.pow 2 61 } }

/-- The file that says so. -/
def roomyText : String := "[global]\nchannel_capacity = 2305843009213693952\n"

/-- An interval that is beyond what the clock can count to. -/
def patient : Config := { onePort with global := { interval := Nat.pow 2 63 } }

/-- **What is accepted can be beyond the limits.**  Start-up breaks down over the room for the
mailboxes; and a port is captured and requests are read, but its ticker has ended, whether
the interval was configured or adopted later. -/
theorem accepts_beyond_limits :
    (roomy.validate = .ok () ∧ (ConfigSource.text roomyText).load = .ok roomy ∧
      Startup.ofSource (.text roomyText) = .brokeDown ⟨0, 30, 120, true⟩) ∧
    (patient.validate = .ok () ∧ ∃ timing : Timing,
      patient.settings = .ok (onePlan timing).settings ∧
      patient.portList = .ok (onePlan timing).ports ∧
      let st := ((ofPlan (onePlan timing)).undergo begun).service.station
      st.registry.isCapturing 1 = true ∧ st.registry.triggers.closed = false ∧
        (st.ticker? 1).map Ticker.phase = some .finished) ∧
    onePort.validate = .ok () ∧ onePort.settings = .ok (onePlan .standard).settings ∧
      onePort.portList = .ok (onePlan .standard).ports ∧
      (Timing.ofNumbers (Nat.pow 2 63) 4).isOk = true ∧
      let st := ((ofPlan (onePlan .standard)).undergo
        (begun ++ retimed (Nat.pow 2 63))).service.station
      st.registry.isCapturing 1 = true ∧ st.registry.triggers.closed = false ∧
        (st.ticker? 1).map Ticker.phase = some .finished := by
  refine ⟨⟨by rfl, by decide +kernel, by decide +kernel⟩,
    ⟨by rfl, { interval := Nat.pow 2 63, multiplier := 4 }, by rfl, by rfl,
      by decide +kernel, by decide +kernel, by decide +kernel⟩,
    by rfl, by rfl, by rfl, by decide, by decide +kernel, by decide +kernel, by decide +kernel⟩

end Daemon
end Lldp
