/-
# What the owner of a registry can do to it

Sessions, captures, the list of captured ports, tickers and handles are kept in
different places, and every operation touches some of them.  `Alters` says once what
operations are made of: an interface is opened for a port, a port is stopped, a port is
registered or forgotten, all ports are given other timing, or nothing is done that has
to do with captures (`Keeps`).  Each operation is a sequence of these
(`Alters.execute`, `Alters.handleTransmit`, `Alters.shutdown`, …), so that an invariant
of captures is proved from six cases and no operation is opened for it again.

An alteration comes with the tasks that it sets off, one for every interface that is
opened, in the order in which they are: they stand after the tasks that there were
(`Alters.tasks`).
-/

import Lldp.Proofs.Registry.Course

namespace Lldp

/-- A session changed in nothing that goes with its capture; a packet may be kept ready
while there is one. -/
structure Session.Keeps (s s' : Session) : Prop where
  port : s'.port = s.port
  capture : s'.capture = s.capture
  ticker : s'.transmitter.ticker.isSome = s.transmitter.ticker.isSome
  timing : s'.transmitter.timing = s.transmitter.timing
  cached : s'.transmitter.cached.isSome = true →
    s.transmitter.cached.isSome = true ∨ s.isCapturing = true

/-- A session that is not changed is kept. -/
theorem Session.Keeps.refl (s : Session) : s.Keeps s :=
  ⟨rfl, rfl, rfl, rfl, Or.inl⟩

/-- A session with the same port, capture and transmitter. -/
theorem Session.Keeps.of_eq {s s' : Session} (hp : s'.port = s.port)
    (hc : s'.capture = s.capture) (ht : s'.transmitter = s.transmitter) : s.Keeps s' :=
  ⟨hp, hc, by rw [ht], by rw [ht], by rw [ht]; exact Or.inl⟩

namespace Registry

variable {r r' r'' : Registry} {i : IfIndex} {s : Session} {now : Nat}
  {log log' : List CaptureTask}

/-- Nothing that has to do with captures is done; at most a frame is written. -/
structure Keeps (r r' : Registry) : Prop where
  indexes : r'.indexes = r.indexes
  session : ∀ j s', r'.session? j = some s' → ∃ s, r.session? j = some s ∧ s.Keeps s'
  timing : r'.settings.timing = r.settings.timing
  upPorts : r'.upPorts = r.upPorts
  generation : r'.generation = r.generation
  tasks : r'.tasks = r.tasks
  backend : r'.backend = r.backend ∨
    ∃ handle bytes, r.backend.write handle bytes = .ok r'.backend

namespace Keeps

/-- The sessions are the same. -/
theorem of_sessions (hs : r'.sessions = r.sessions)
    (ht : r'.settings.timing = r.settings.timing) (hu : r'.upPorts = r.upPorts)
    (hg : r'.generation = r.generation) (htasks : r'.tasks = r.tasks)
    (hb : r'.backend = r.backend) : Keeps r r' := by
  refine ⟨by simp only [Registry.indexes, hs], fun j s h => ⟨s, ?_, .refl s⟩, ht, hu, hg, htasks,
    Or.inl hb⟩
  rwa [session?, hs] at h

/-- Where nothing happens, all is kept. -/
theorem refl (r : Registry) : Keeps r r := of_sessions rfl rfl rfl rfl rfl rfl

/-- One session is changed, in a way that the registry allows for. -/
theorem modify {change : Session → Session} (hp : ∀ s, (change s).port = s.port)
    (hs : ∀ s, r.session? i = some s → s.Keeps (change s)) : Keeps r (r.modify i change) := by
  refine ⟨indexes_modify hp, fun j s' h => ?_, rfl, rfl, rfl, rfl, Or.inl rfl⟩
  rw [session?_modify hp] at h
  split_ifs at h with hj
  · subst hj
    obtain ⟨s, hsj, rfl⟩ := Option.map_eq_some_iff.1 h
    exact ⟨s, hsj, hs s hsj⟩
  · exact ⟨s', h, .refl s'⟩

/-- A frame is written and then one session changed. -/
theorem write {change : Session → Session} {lo' : Loopback} {handle : Nat} {bytes : Octets}
    (hw : r.backend.write handle bytes = .ok lo') (hp : ∀ s, (change s).port = s.port)
    (hs : ∀ s, r.session? i = some s → s.Keeps (change s)) :
    Keeps r ({ r with backend := lo' }.modify i change) := by
  obtain ⟨hindexes, hsession, htiming, hup, hg, htasks, -⟩ := modify hp hs
  exact ⟨hindexes, hsession, htiming, hup, hg, htasks, Or.inr ⟨handle, bytes, hw⟩⟩

end Keeps

/-- The task that is set off when the interface of a port is opened. -/
def nextTask (r : Registry) (i : IfIndex) : CaptureTask :=
  { ifIndex := i, generation := r.generation + 1, handle := r.backend.handles.length }

/-- **An alteration of a registry**, and the tasks that it sets off. -/
inductive Alters : Registry → List CaptureTask → Registry → Prop where
  | keep {r r' : Registry} (h : Keeps r r') : Alters r [] r'
  /-- The interface of a port that is not captured is opened. -/
  | opened {r : Registry} {i : IfIndex} {s : Session} {lo' : Loopback}
      (hs : r.session? i = some s) (hdue : r.isDue s = true)
      (hopen : r.backend.openHandle s.port.name r.settings.capture.readTimeout
        Ethernet.captureFilter = .ok (r.backend.handles.length, lo')) :
      Alters r [r.nextTask i] ({ r with backend := lo' }.adopt i r.backend.handles.length)
  /-- A port is stopped. -/
  | stopped {r : Registry} {i : IfIndex} {s : Session} (hs : r.session? i = some s) :
      Alters r [] (r.stop i).2
  /-- A port is registered. -/
  | added {r : Registry} {port : Port} (hs : r.session? port.ifIndex = none) :
      Alters r [] (r.add port).2
  /-- A port that is not captured is forgotten. -/
  | dropped {r : Registry} {i : IfIndex} {s : Session} (hs : r.session? i = some s)
      (hc : s.capture = none) :
      Alters r [] { r with sessions := r.sessions.filter (·.port.ifIndex ≠ i) }
  /-- All ports are given other timing. -/
  | retimed {r : Registry} (timing : Timing) : Alters r [] (r.retime timing)
  | trans {r r' r'' : Registry} {log log' : List CaptureTask} (h : Alters r log r')
      (h' : Alters r' log' r'') : Alters r (log ++ log') r''

namespace Alters

/-- To do nothing is an alteration that sets off no task. -/
theorem refl (r : Registry) : Alters r [] r := keep (.refl r)

/-- **The tasks that are set off** stand after those that there were. -/
theorem tasks (h : Alters r log r') : r'.tasks = r.tasks ++ log := by
  induction h with
  | keep h => rw [h.tasks, List.append_nil]
  | opened hs hdue hopen => rfl
  | stopped hs =>
    rw [stop, hs, List.append_nil]
    rfl
  | added hs =>
    rw [add, hs, List.append_nil]
  | dropped hs hc => rw [List.append_nil]
  | retimed timing =>
    rw [List.append_nil]
    rfl
  | trans h h' ih ih' => rw [ih', ih, List.append_assoc]

/-- **Generations are given out one after another.** -/
theorem generations (h : Alters r log r') :
    log.map CaptureTask.generation = List.range' (r.generation + 1) log.length ∧
      r'.generation = r.generation + log.length := by
  induction h with
  | keep h => exact ⟨rfl, h.generation⟩
  | opened hs hdue hopen => exact ⟨rfl, rfl⟩
  | stopped hs =>
    rw [stop, hs]
    exact ⟨rfl, rfl⟩
  | added hs =>
    rw [add, hs]
    exact ⟨rfl, rfl⟩
  | dropped hs hc => exact ⟨rfl, rfl⟩
  | retimed timing => exact ⟨rfl, rfl⟩
  | @trans r r' r'' log log' h h' ih ih' =>
    obtain ⟨hlog, hg⟩ := ih
    obtain ⟨hlog', hg'⟩ := ih'
    have hnext : r'.generation + 1 = r.generation + 1 + log.length := by omega
    refine ⟨?_, by rw [hg', hg, List.length_append, Nat.add_assoc]⟩
    rw [List.map_append, hlog, hlog', hnext, List.length_append, List.range'_append_1]

/-- **A task that is set off** has yet to begin. -/
theorem begins (h : Alters r log r') : ∀ t ∈ log, t.phase = .watching ∧ t.exiting = false := by
  induction h with
  | opened hs hdue hopen =>
    intro t ht
    rw [List.mem_singleton.1 ht]
    exact ⟨rfl, rfl⟩
  | trans h h' ih ih' =>
    intro t ht
    rcases List.mem_append.1 ht with hfirst | hthen
    · exact ih t hfirst
    · exact ih' t hthen
  | _ => nofun

/-! ### The operations -/

/-- An alteration that sets no task off, before another. -/
theorem after (h : Alters r [] r') (h' : Alters r' log r'') : Alters r log r'' := trans h h'

/-- To register a port sets off no task. -/
theorem add {port : Port} : Alters r [] (r.add port).2 := by
  cases h : r.session? port.ifIndex with
  | some s =>
    rw [add_of_session? h]
    exact refl r
  | none => exact added h

/-- To record the state of a link sets off none either. -/
theorem setLink {state : LinkState} : Alters r [] (r.setLink i state).2 := by
  rw [setLink_snd]
  exact keep (.modify (fun _ => rfl) fun s _ => .of_eq rfl rfl rfl)

/-- **Starting a port** opens its interface or changes nothing. -/
theorem start (r : Registry) (i : IfIndex) : ∃ log, Alters r log (r.start i).2 := by
  rcases start_cases r i with ⟨-, h⟩ | ⟨-, s, lo', hs, hdue, hopen, h⟩
  · rw [h]
    exact ⟨[], refl r⟩
  · rw [h]
    exact ⟨_, opened hs hdue hopen⟩

/-- To stop a port sets off none. -/
theorem stop : Alters r [] (r.stop i).2 := by
  cases h : r.session? i with
  | none =>
    rw [stop_of_none h]
    exact refl r
  | some s => exact stopped h

/-- Alarms set off no task. -/
theorem cancelAlarm : Alters r [] (r.cancelAlarm i) := by
  unfold Registry.cancelAlarm
  cases h : r.session? i with
  | none => exact refl r
  | some s =>
    have hkeep : Keeps { r with alarms := (s.receiver.cancel r.alarms).2 }
        ({ r with alarms := (s.receiver.cancel r.alarms).2 }.modify i fun s' =>
          { s' with receiver := (s.receiver.cancel r.alarms).1 }) :=
      .modify (fun _ => rfl) fun s' _ => .of_eq rfl rfl rfl
    have halarms : Keeps r { r with alarms := (s.receiver.cancel r.alarms).2 } :=
      .of_sessions rfl rfl rfl rfl rfl rfl
    exact (keep halarms).after (keep hkeep)

/-- **Removing a port** stops it before it is forgotten. -/
theorem remove : Alters r [] (r.remove i).2 := by
  cases h : r.session? i with
  | none =>
    rw [remove_of_none h]
    exact refl r
  | some s =>
    have hidle : ((r.stop i).2.cancelAlarm i).session? i =
        some { s.stop with receiver := { s.stop.receiver with alarm := none } } := by
      rw [session?_cancelAlarm, if_pos rfl, session?_stop, if_pos rfl, h]
      rfl
    rw [remove_of_session? h]
    exact (stop.after cancelAlarm).after (dropped hidle rfl)

/-- **To start or stop a port** as its switches say is one alteration. -/
theorem follow (r : Registry) (i : IfIndex) (on : Bool) : ∃ log, Alters r log (r.follow i on) := by
  unfold Registry.follow
  split_ifs
  · exact start r i
  · exact ⟨[], stop⟩

/-- For several ports, it is one after another, with the tasks of all of them. -/
theorem followAll (on : Bool) (is : List IfIndex) :
    ∀ r : Registry, ∃ log, Alters r log (r.followAll is on) := by
  induction is with
  | nil => exact fun r => ⟨[], refl r⟩
  | cons i is ih =>
    intro r
    obtain ⟨log, h⟩ := follow r i on
    obtain ⟨log', h'⟩ := ih (r.follow i on)
    exact ⟨log ++ log', h.trans h'⟩

/-- To throw the main switch sets off no task by itself. -/
theorem setEnabled {on : Bool} : Alters r [] (r.setEnabled on) :=
  keep (.of_sessions rfl rfl rfl rfl rfl rfl)

/-- A report of a link records it, and starts or stops the port. -/
theorem reportLink (r : Registry) (i : IfIndex) (state : LinkState) :
    ∃ log, Alters r log (r.reportLink i state).2 := by
  obtain ⟨log, h⟩ := follow (r.setLink i state).2 i (state = .up)
  rw [reportLink_snd]
  exact ⟨log, setLink.after h⟩

/-- **Settings that are changed** are recorded, and ports start and stop as they say. -/
theorem apply (r : Registry) (change : Change) : ∃ log, Alters r log (r.apply change).2 := by
  cases change with
  | globalEnable on =>
    obtain ⟨log, h⟩ := followAll on r.indexes (r.setEnabled on)
    exact ⟨log, setEnabled.after h⟩
  | portEnable i on =>
    have hset : Alters r [] (r.setPortEnabled i on) :=
      keep (.modify (fun _ => rfl) fun s _ => .of_eq rfl rfl rfl)
    obtain ⟨log, h⟩ := follow (r.setPortEnabled i on) i on
    rw [apply_portEnable]
    exact ⟨log, hset.after h⟩
  | timing interval multiplier =>
    rcases apply_timing_cases r interval multiplier with ⟨-, h⟩ | ⟨timing, -, -, h⟩
    · rw [h]
      exact ⟨[], refl r⟩
    · rw [h]
      exact ⟨[], retimed timing⟩

/-- **Every request of a client.** -/
theorem execute (r : Registry) (q : Request) : ∃ log, Alters r log (r.execute q).2 := by
  cases q with
  | add port => exact ⟨[], add⟩
  | remove i => exact ⟨[], remove⟩
  | reportLink i state => exact reportLink r i state
  | neighbors start count => exact ⟨[], refl r⟩
  | counters i => exact ⟨[], refl r⟩
  | apply change => exact apply r change

/-- No packet sets off a task. -/
theorem handleInbound {packet : Inbound} : Alters r [] (r.handleInbound now packet) := by
  rcases handleInbound_cases r now packet with
    ⟨-, heq⟩ | ⟨s, -, -, ⟨-, heq⟩ | ⟨n, -, heq⟩⟩
  · rw [heq]
    exact refl r
  · rw [heq]
    exact keep (.modify (fun _ => rfl) fun s _ => .of_eq rfl rfl rfl)
  · rw [heq]
    have halarms : Keeps r { r with alarms :=
        ({ s.receiver with neighbor := some n }.refresh r.alarms packet.ifIndex
          (now + n.frame.ttl.toMillis)).2 } := .of_sessions rfl rfl rfl rfl rfl rfl
    exact (keep halarms).after (keep (.modify (fun _ => rfl) fun s _ => .of_eq rfl rfl rfl))

/-- **A request to transmit** leaves the ticker and the timing alone, and keeps a packet
ready only for a port that is captured. -/
theorem handleTransmit : Alters r [] (r.handleTransmit i) := by
  have hcurrent : ∀ (t : Transmitter) source name,
      (t.current source name).2.ticker = t.ticker ∧
        (t.current source name).2.timing = t.timing := by
    intro t source name
    unfold Transmitter.current Transmitter.build
    split
    · exact ⟨rfl, rfl⟩
    · split <;> exact ⟨rfl, rfl⟩
  rcases handleTransmit_cases r i with ⟨-, h⟩ | ⟨s, c, hs, hc, hcases⟩
  · rw [h]
    exact refl r
  · have hcapturing : s.isCapturing = true := by rw [Session.isCapturing, hc]; rfl
    obtain ⟨hticker, htiming⟩ := hcurrent s.transmitter s.port.mac s.port.name
    rcases hcases with ⟨-, h⟩ | ⟨-, -, h⟩ | ⟨-, lo', hw, h⟩
    · rw [h]
      refine keep (.modify (fun _ => rfl) fun s' hs' => ?_)
      obtain rfl := Option.some.inj (hs.symm.trans hs')
      exact ⟨rfl, rfl, congrArg Option.isSome hticker, htiming, fun _ => Or.inr hcapturing⟩
    · rw [h]
      refine keep (.modify (fun _ => rfl) fun s' hs' => ?_)
      obtain rfl := Option.some.inj (hs.symm.trans hs')
      exact ⟨rfl, rfl, congrArg Option.isSome hticker, htiming, fun _ => Or.inr hcapturing⟩
    · rw [h]
      refine keep (.write hw (fun _ => rfl) fun s' hs' => ?_)
      obtain rfl := Option.some.inj (hs.symm.trans hs')
      exact ⟨rfl, rfl, congrArg Option.isSome hticker, htiming, fun _ => Or.inr hcapturing⟩

/-- A neighbour that is forgotten sets off no task. -/
theorem handleExpiry : Alters r [] (r.handleExpiry i) := by
  unfold Registry.handleExpiry
  cases h : r.session? i with
  | none => exact refl r
  | some s => exact keep (.modify (fun _ => rfl) fun s _ => .of_eq rfl rfl rfl)

/-- Nor does the alarm that goes off for it. -/
theorem expire {alarm : Alarm} : Alters r [] (r.expire now alarm) := by
  have htake : Keeps r { r with alarms := r.alarms.take now alarm } :=
    .of_sessions rfl rfl rfl rfl rfl rfl
  exact (keep htake).after handleExpiry

/-- To stop all ports sets off none. -/
theorem shutdown : Alters r [] r.shutdown :=
  @rel_shutdown (Alters · [] ·) refl (fun _ _ _ h h' => h.after h') (fun _ _ => stop)
    (fun _ _ => cancelAlarm) r

end Alters

/-! ### Tasks in the order in which they were set off -/

/-- The tasks of captures stand in the order of their generations, and none is ahead of
the last. -/
structure Ranked (r : Registry) : Prop where
  sorted : (r.tasks.map CaptureTask.generation).Pairwise (· < ·)
  le : ∀ t ∈ r.tasks, t.generation ≤ r.generation

namespace Ranked

variable {t u : CaptureTask}

/-- Where there is no task, tasks are in order. -/
theorem ofSettings (settings : Settings) : (Registry.ofSettings settings).Ranked :=
  ⟨.nil, nofun⟩

/-- **A generation tells its task.** -/
theorem eq_of_generation (h : r.Ranked) (ht : t ∈ r.tasks) (hu : u ∈ r.tasks)
    (hg : u.generation = t.generation) : u = t :=
  List.inj_on_of_nodup_map (h.sorted.imp fun hlt => Nat.ne_of_lt hlt) hu ht hg

/-- Tasks may end, and those that go on keep their generations. -/
theorem of_sublist (h : r.Ranked) (hg : r'.generation = r.generation)
    (ht : (r'.tasks.map CaptureTask.generation).Sublist (r.tasks.map CaptureTask.generation)) :
    r'.Ranked := by
  refine ⟨h.sorted.sublist ht, fun u hu => ?_⟩
  obtain ⟨t, hmem, hsame⟩ := List.mem_map.1 (ht.subset (List.mem_map_of_mem hu))
  rw [hg, ← hsame]
  exact h.le t hmem

/-- **Every alteration** puts the tasks that it sets off behind the others. -/
theorem alters (h : r.Ranked) (a : Alters r log r') : r'.Ranked := by
  obtain ⟨hlog, hg⟩ := a.generations
  have hnew : ∀ g ∈ log.map CaptureTask.generation,
      r.generation < g ∧ g ≤ r.generation + log.length := by
    intro g hmem
    rw [hlog, List.mem_range'_1] at hmem
    omega
  constructor
  · rw [a.tasks, List.map_append, List.pairwise_append]
    refine ⟨h.sorted, hlog ▸ List.pairwise_lt_range', fun g hold g' hg' => ?_⟩
    obtain ⟨t, ht, rfl⟩ := List.mem_map.1 hold
    exact Nat.lt_of_le_of_lt (h.le t ht) (hnew g' hg').1
  · intro t ht
    rw [a.tasks] at ht
    rw [hg]
    rcases List.mem_append.1 ht with hold | ht
    · exact Nat.le_trans (h.le t hold) (Nat.le_add_right _ _)
    · exact (hnew _ (List.mem_map_of_mem ht)).2

end Ranked

end Registry
end Lldp
