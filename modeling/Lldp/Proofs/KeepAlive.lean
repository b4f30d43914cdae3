/-
# Keeping a neighbour alive

Two stations share a wire: what a port of the one writes reaches a port of the other at
once, or is lost on the way.  Requests to transmit are met at once and ticks come on time,
so time passes only while the first station has nothing to do for its port
(`Pair.admits`); otherwise anything may happen to either station, in any order.

A frame that arrives is due for replacement after a period, and every frame after it that
is lost, or that cannot be written, costs one more (`Pair.Alive.after`).  A receiver that
was promised more than that does not forget (`Pair.neighbor_kept_alive`).
-/

import Lldp.Proofs.Station.Pacing
import Lldp.Proofs.Station.Remembering

namespace Lldp

/-- Two stations, one of which is to be heard by the other. -/
structure Pair where
  sender : Station
  receiver : Station

/-- What can happen to two stations at once. -/
inductive PairStep where
  /-- Something happens to the sender; if it writes a frame on its port, this arrives if so
  said. -/
  | sender (x : Incident) (arrives : Bool)
  | receiver (x : Incident)
  /-- Time passes for both. -/
  | pass (ms : Nat)
deriving DecidableEq, Repr

namespace Station

/-- The frame that a port writes at an incident, if it writes one. -/
def writes? (st : Station) (i : IfIndex) (x : Incident) : Option Octets :=
  if st.meets i x then st.registry.written? i else none

/-- Whether an incident takes no time, hands no packet over for a port, and does not tell it
of an alarm that has not gone off. -/
def secludes (st : Station) (k : IfIndex) : Incident → Bool
  | .operation (.pass _) => false
  | .expiry j => j ≠ k
  | x => (st.handsOver x).all (·.ifIndex ≠ k)

theorem of_secludes {st : Station} {k : IfIndex} {x : Incident} (h : st.secludes k x = true) :
    (∀ ms, x ≠ .operation (.pass ms)) ∧ x ≠ .expiry k ∧
      ∀ packet, st.handsOver x = some packet → packet.ifIndex ≠ k := by
  refine ⟨fun ms hx => ?_, fun hx => ?_, fun packet hpacket => ?_⟩
  · rw [hx] at h
    cases h
  · rw [hx] at h
    simp [secludes] at h
  · have hall : (st.handsOver x).all (·.ifIndex ≠ k) = true := by
      unfold secludes at h
      split at h
      · cases h
      · cases hpacket
      · exact h
    simpa [hpacket] using hall

end Station

namespace Pair

variable {i k : IfIndex} {p : Pair} {x : PairStep} {steps early late : List PairStep}

/-- The frame that arrives at the receiver, if one does. -/
def carries? (i : IfIndex) (p : Pair) (x : Incident) (arrives : Bool) : Option Octets :=
  if arrives then p.sender.writes? i x else none

/-- Two stations after a step; what arrives of the port `i` of the sender is handed over for
the port `k` of the receiver. -/
def after (i k : IfIndex) (p : Pair) : PairStep → Pair
  | .sender x arrives =>
    { sender := p.sender.after x
      receiver := (p.carries? i x arrives).elim p.receiver fun bytes =>
        p.receiver.after (.operation (.inbound { ifIndex := k, bytes })) }
  | .receiver x => { p with receiver := p.receiver.after x }
  | .pass ms =>
    { sender := p.sender.after (.operation (.pass ms))
      receiver := p.receiver.after (.operation (.pass ms)) }

/-- Where nothing arrives, the receiver is not concerned. -/
theorem after_sender {y : Incident} {arrives : Bool} (h : p.carries? i y arrives = none) :
    p.after i k (.sender y arrives) = { p with sender := p.sender.after y } := by
  rw [after, h]
  rfl

def run (i k : IfIndex) (p : Pair) (steps : List PairStep) : Pair := steps.foldl (after i k) p

/-- Nothing arrives where no request is met. -/
theorem carries?_of_not_meets {y : Incident} {arrives : Bool}
    (h : p.sender.meets i y = false) : p.carries? i y arrives = none := by
  simp [carries?, Station.writes?, h]

/-- What became of the requests to transmit that a step meets on the port: whether a frame
was written and arrived. -/
def arrivals (i : IfIndex) (p : Pair) : PairStep → List Bool
  | .sender x arrives => if p.sender.meets i x then [(p.carries? i x arrives).isSome] else []
  | _ => []

/-- What became of the requests that are met in a run, in their order. -/
def outcomes (i k : IfIndex) (p : Pair) (steps : List PairStep) : List Bool :=
  Trace.outputs (after i k) (arrivals i) p steps

/-- Whether requests to transmit are met at once and ticks come on time, and nothing reaches
the receiver's port but what the sender's writes. -/
def admits (i k : IfIndex) (p : Pair) : PairStep → Bool
  | .sender x _ => p.sender.sustains i x
  | .receiver x => p.receiver.secludes k x
  | .pass ms => p.sender.idles i ms

/-- Both ports are captured, and the link of the sender's is up. -/
def Steady (i k : IfIndex) (p : Pair) : Prop :=
  p.sender.isOnAir i = true ∧ p.receiver.registry.isCapturing k = true

instance : Decidable (Steady i k p) := inferInstanceAs (Decidable (_ ∧ _))

/-- The ports are steady before a run, after it and in between, and every step is admitted. -/
def Connected (i k : IfIndex) : Pair → List PairStep → Prop
  | p, [] => p.Steady i k
  | p, x :: steps =>
    p.Steady i k ∧ p.admits i k x = true ∧ (p.after i k x).Connected i k steps

instance decidableConnected : ∀ p steps, Decidable (Connected i k p steps)
  | p, [] => inferInstanceAs (Decidable (p.Steady i k))
  | p, x :: steps =>
    haveI := decidableConnected (p.after i k x) steps
    inferInstanceAs (Decidable (p.Steady i k ∧ p.admits i k x = true ∧ _))

theorem Connected.first (h : p.Connected i k steps) : p.Steady i k := by
  cases steps with
  | nil => exact h
  | cons x steps => exact h.1

theorem Connected.start (h : p.Connected i k (early ++ late)) : p.Connected i k early := by
  induction early generalizing p with
  | nil => exact h.first
  | cons x early ih => exact ⟨h.1, h.2.1, ih h.2.2⟩

/-! ### While frames arrive often enough -/

/-- How things stand since the last frame that arrived, with so many that did not since.  It
arrived at the time `sent` of the sender and `heard` of the receiver. -/
structure Alive (i k : IfIndex) (port : Port) (timing : Timing) (ageouts sent heard missed : Nat)
    (p : Pair) : Prop where
  paced : p.sender.Paced i port timing
  remembers : p.receiver.registry.Remembers k (Transmitter.announcement timing port.mac port.name)
    ageouts (heard + 1000 * timing.ttl)
  clocks : p.sender.now + heard = p.receiver.now + sent
  now_le : p.sender.now ≤ sent + (missed + 1) * timing.period
  /-- The next tick is late by no more than what was missed and what is yet to be met. -/
  next_le : p.sender.nextTick i ≤
    sent + (missed + 1 + p.sender.outstanding i) * timing.period

variable {port : Port} {timing : Timing} {ageouts sent heard missed j : Nat}

namespace Alive

/-- **The receiver has more time** than the sender may let pass. -/
theorem in_time (h : p.Alive i k port timing ageouts sent heard missed)
    (hj : (j + 1) * timing.interval < timing.ttl) (hmissed : missed ≤ j) :
    p.receiver.now < heard + 1000 * timing.ttl := by
  have hslow : (missed + 1) * timing.period ≤ (j + 1) * timing.interval * 1000 := by
    rw [Timing.period, ← Nat.mul_assoc]
    exact Nat.mul_le_mul_right _ (Nat.mul_le_mul_right _ (Nat.succ_le_succ hmissed))
  have hclocks := h.clocks
  have hnow := h.now_le
  omega

/-- **The receiver's doings** do not make it forget. -/
theorem receiver (h : p.Alive i k port timing ageouts sent heard missed) {y : Incident}
    (hin : p.receiver.now < heard + 1000 * timing.ttl) (hsteady : p.Steady i k)
    (hsteady' : (p.after i k (.receiver y)).Steady i k) (hy : p.receiver.secludes k y = true) :
    (p.after i k (.receiver y)).Alive i k port timing ageouts sent heard missed := by
  obtain ⟨hpass, hexpiry, hpacket⟩ := Station.of_secludes hy
  have hnow : (p.receiver.after y).now = p.receiver.now := Station.now_after hpass
  exact ⟨h.paced,
    Station.remembers_after h.remembers hsteady.2 hsteady'.2 hexpiry hpacket hin,
    h.clocks.trans (congrArg (· + sent) hnow.symm), h.now_le, h.next_le⟩

/-- **Time passes** until the next tick at the most. -/
theorem pass (h : p.Alive i k port timing ageouts sent heard missed) {ms : Nat}
    (hin : p.receiver.now < heard + 1000 * timing.ttl) (hsteady : p.Steady i k)
    (hsteady' : (p.after i k (.pass ms)).Steady i k) (hidle : p.sender.idles i ms = true) :
    (p.after i k (.pass ms)).Alive i k port timing ageouts sent heard missed := by
  obtain ⟨hpaced, hnext, hnone, hnone', hdue⟩ := h.paced.pass hidle
  have hlate := h.next_le
  rw [hnone', Nat.add_zero] at hlate
  refine ⟨hpaced, Station.remembers_after h.remembers hsteady.2 hsteady'.2 (by simp)
    (by simp [Station.handsOver]) hin, ?_, Nat.le_trans hdue hlate, ?_⟩
  · have hclocks := h.clocks
    show p.sender.now + ms + heard = p.receiver.now + ms + sent
    omega
  · show (p.sender.after _).nextTick i ≤ sent + (missed + 1 + (p.sender.after _).outstanding i) * _
    rw [hnext, hnone]
    exact hlate

/-- **The sender's doings** but those that meet a request: its next tick stays where it is,
or is late by one more request that is to be met. -/
theorem sender_idle (h : p.Alive i k port timing ageouts sent heard missed) {y : Incident}
    {arrives : Bool} (hsteady : p.Steady i k)
    (hsteady' : (p.after i k (.sender y arrives)).Steady i k)
    (hy : p.sender.sustains i y = true) (hmeets : p.sender.meets i y = false) :
    (p.after i k (.sender y arrives)).Alive i k port timing ageouts sent heard missed := by
  obtain ⟨hpaced, hpace⟩ := h.paced.after hy hsteady.1 hsteady'.1
  have hnow : (p.sender.after y).now = p.sender.now := Station.now_of_sustains hy
  rw [after_sender (carries?_of_not_meets hmeets)]
  rw [hmeets] at hpace
  refine ⟨hpaced, h.remembers, (congrArg (· + heard) hnow).trans h.clocks,
    Nat.le_trans (Nat.le_of_eq hnow) h.now_le, ?_⟩
  have hlate := h.next_le
  show (p.sender.after y).nextTick i ≤ _
  cases hpace with
  | rests hnext hout =>
    rw [hnext]
    exact hout ▸ hlate
  | asks hdue hnext hout =>
    show _ ≤ sent + (missed + 1 + (p.sender.after y).outstanding i) * timing.period
    rw [hdue] at hlate
    rw [hnext, hout, ← Nat.add_assoc, Nat.succ_mul]
    omega

/-- **A request that is met in vain** leaves the next tick where it is. -/
theorem sender_missed (h : p.Alive i k port timing ageouts sent heard missed) {y : Incident}
    {arrives : Bool} (hsteady : p.Steady i k)
    (hsteady' : (p.after i k (.sender y arrives)).Steady i k)
    (hy : p.sender.sustains i y = true) (hmeets : p.sender.meets i y = true)
    (hnone : p.carries? i y arrives = none) :
    (p.after i k (.sender y arrives)).Alive i k port timing ageouts sent heard (missed + 1) := by
  obtain ⟨hpaced, hpace⟩ := h.paced.after hy hsteady.1 hsteady'.1
  have hnow : (p.sender.after y).now = p.sender.now := Station.now_of_sustains hy
  rw [after_sender hnone]
  rw [hmeets] at hpace
  refine ⟨hpaced, h.remembers, (congrArg (· + heard) hnow).trans h.clocks, ?_, ?_⟩
  · have hearly := h.now_le
    show (p.sender.after y).now ≤ _
    rw [hnow, Nat.succ_mul]
    omega
  · cases hpace with
    | meets hnext hout =>
      have hlate := h.next_le
      have hmore : (missed + 1 + p.sender.outstanding i) * timing.period ≤
          (missed + 1 + 1 + (p.sender.after y).outstanding i) * timing.period :=
        Nat.mul_le_mul_right _ (by omega)
      show (p.sender.after y).nextTick i ≤
        sent + (missed + 1 + 1 + (p.sender.after y).outstanding i) * timing.period
      rw [hnext]
      omega

end Alive

/-- **A frame that arrives** makes the receiver remember the sender, and the next tick is due
within a period. -/
theorem alive_of_carries (hpaced : p.sender.Paced i port timing)
    (howns : p.receiver.registry.OwnsAlarms k)
    (hages : (p.receiver.registry.known? k).map Prod.snd = some ageouts) {y : Incident}
    {arrives : Bool} {bytes : Octets} (hsteady : p.Steady i k)
    (hsteady' : (p.after i k (.sender y arrives)).Steady i k)
    (hy : p.sender.sustains i y = true) (hcarries : p.carries? i y arrives = some bytes) :
    (p.after i k (.sender y arrives)).Alive i k port timing ageouts p.sender.now
      p.receiver.now 0 := by
  have hwritten : p.sender.registry.written? i = some bytes := by
    unfold carries? Station.writes? at hcarries
    split_ifs at hcarries
    exact hcarries
  have hthen : p.after i k (.sender y arrives) =
      { sender := p.sender.after y
        receiver := p.receiver.after (.operation (.inbound { ifIndex := k, bytes })) } := by
    rw [Pair.after, hcarries]
    rfl
  have hnow : (p.sender.after y).now = p.sender.now := Station.now_of_sustains hy
  have hpaced' := (hpaced.after hy hsteady.1 hsteady'.1).1
  rw [hthen]
  refine ⟨hpaced', Station.remembers_inbound howns hsteady.2 (hpaced.packet_of_written? hwritten)
    hages, ?_, ?_, ?_⟩
  · show (p.sender.after y).now + p.receiver.now = p.receiver.now + p.sender.now
    omega
  · show (p.sender.after y).now ≤ _
    omega
  · have hnext := hpaced'.nextTick_le
    have hone : timing.period ≤ (0 + 1 + (p.sender.after y).outstanding i) * timing.period :=
      Nat.le_mul_of_pos_left _ (by omega)
    show (p.sender.after y).nextTick i ≤ _ + (0 + 1 + (p.sender.after y).outstanding i) * _
    omega

/-- **One step while frames arrive often enough.** -/
theorem Alive.after (h : p.Alive i k port timing ageouts sent heard missed)
    (hin : p.receiver.now < heard + 1000 * timing.ttl) (hsteady : p.Steady i k)
    (hsteady' : (p.after i k x).Steady i k) (hx : p.admits i k x = true) :
    ∃ sent' heard' missed',
      (p.after i k x).Alive i k port timing ageouts sent' heard' missed' ∧
        (p.arrivals i x = [] ∧ missed' = missed ∨
          p.arrivals i x = [false] ∧ missed' = missed + 1 ∨
          p.arrivals i x = [true] ∧ missed' = 0) := by
  cases x with
  | sender y arrives =>
    cases hmeets : p.sender.meets i y with
    | false =>
      exact ⟨_, _, _, h.sender_idle hsteady hsteady' hx hmeets,
        .inl ⟨by simp [arrivals, hmeets], rfl⟩⟩
    | true =>
      cases hcarries : p.carries? i y arrives with
      | none =>
        exact ⟨_, _, _, h.sender_missed hsteady hsteady' hx hmeets hcarries,
          .inr (.inl ⟨by simp [arrivals, hmeets, hcarries], rfl⟩)⟩
      | some bytes =>
        have hages : (p.receiver.registry.known? k).map Prod.snd = some ageouts := by
          rw [h.remembers.known]
          rfl
        exact ⟨_, _, _, alive_of_carries h.paced h.remembers.owns hages hsteady hsteady' hx hcarries,
          .inr (.inr ⟨by simp [arrivals, hmeets, hcarries], rfl⟩)⟩
  | receiver y => exact ⟨_, _, _, h.receiver hin hsteady hsteady' hx, .inl ⟨rfl, rfl⟩⟩
  | pass ms => exact ⟨_, _, _, h.pass hin hsteady hsteady' hx, .inl ⟨rfl, rfl⟩⟩

/-- **A run in which no more than so many frames in a row do not arrive.** -/
theorem Alive.run (h : p.Alive i k port timing ageouts sent heard missed)
    (hj : (j + 1) * timing.interval < timing.ttl) (hrun : p.Connected i k steps)
    (hlost : ¬List.replicate (j + 1) false <:+:
      List.replicate missed false ++ p.outcomes i k steps) :
    ∃ sent' heard' missed',
      (p.run i k steps).Alive i k port timing ageouts sent' heard' missed' := by
  induction steps generalizing p sent heard missed with
  | nil => exact ⟨sent, heard, missed, h⟩
  | cons x steps ih =>
    obtain ⟨hsteady, hx, hrest⟩ := hrun
    have hmissed : missed ≤ j := by
      by_contra hmany
      refine hlost (List.IsPrefix.isInfix ?_ |>.trans (List.prefix_append _ _).isInfix)
      exact ⟨List.replicate (missed - (j + 1)) false, by
        rw [List.replicate_append_replicate]
        congr 1
        omega⟩
    obtain ⟨sent', heard', missed', halive, harrivals⟩ :=
      h.after (h.in_time hj hmissed) hsteady hrest.first hx
    refine ih halive hrest fun hrow => hlost ?_
    have houtcomes : p.outcomes i k (x :: steps) =
        p.arrivals i x ++ (p.after i k x).outcomes i k steps := rfl
    rw [houtcomes]
    rcases harrivals with ⟨hnone, rfl⟩ | ⟨hmiss, rfl⟩ | ⟨harrived, rfl⟩
    · rw [hnone]
      exact hrow
    · rw [hmiss, ← List.append_assoc, ← List.replicate_succ']
      exact hrow
    · rw [harrived]
      exact hrow.trans (List.suffix_append_of_suffix (List.suffix_cons _ _)).isInfix

/-! ### The first frame -/

theorem run_append (p : Pair) (early late : List PairStep) :
    p.run i k (early ++ late) = (p.run i k early).run i k late :=
  List.foldl_append

theorem outcomes_append (p : Pair) (early late : List PairStep) :
    p.outcomes i k (early ++ late) =
      p.outcomes i k early ++ (p.run i k early).outcomes i k late :=
  Trace.outputs_append p early late

theorem Connected.rest (h : p.Connected i k (early ++ late)) :
    (p.run i k early).Connected i k late := by
  induction early generalizing p with
  | nil => exact h
  | cons x early ih => exact ih h.2.2

/-- What holds before the first frame. -/
structure Awaiting (i k : IfIndex) (port : Port) (timing : Timing) (p : Pair) : Prop where
  paced : p.sender.Paced i port timing
  owns : p.receiver.registry.OwnsAlarms k

/-- Steps that meet no request. -/
theorem Awaiting.after (h : p.Awaiting i k port timing) (hsteady : p.Steady i k)
    (hsteady' : (p.after i k x).Steady i k) (hx : p.admits i k x = true)
    (hnone : p.arrivals i x = []) : (p.after i k x).Awaiting i k port timing := by
  cases x with
  | sender y arrives =>
    have hmeets : p.sender.meets i y = false := by
      simpa [arrivals] using hnone
    have hpaced := (h.paced.after hx hsteady.1 hsteady'.1).1
    rw [after_sender (carries?_of_not_meets hmeets)]
    exact ⟨hpaced, h.owns⟩
  | receiver y =>
    exact ⟨h.paced, Station.ownsAlarms_after h.owns (Station.of_secludes hx).2.1⟩
  | pass ms => exact ⟨(h.paced.pass hx).1, Station.ownsAlarms_after h.owns (by simp)⟩

/-- **The first request that is met** is one whose frame arrives, so all is well from then
on. -/
theorem Awaiting.exists_alive (h : p.Awaiting i k port timing) (hrun : p.Connected i k steps)
    (hfirst : (p.outcomes i k steps).head? ≠ some false) (hheard : true ∈ p.outcomes i k steps) :
    ∃ before rest ageouts sent heard, steps = before ++ rest ∧
      (p.run i k before).Alive i k port timing ageouts sent heard 0 := by
  induction steps generalizing p with
  | nil => cases hheard
  | cons x steps ih =>
    obtain ⟨hsteady, hx, hrest⟩ := hrun
    have houtcomes : p.outcomes i k (x :: steps) =
        p.arrivals i x ++ (p.after i k x).outcomes i k steps := rfl
    rw [houtcomes] at hfirst hheard
    cases harrivals : p.arrivals i x with
    | nil =>
      rw [harrivals] at hfirst hheard
      obtain ⟨before, rest, ageouts, sent, heard, rfl, halive⟩ :=
        ih (h.after hsteady hrest.first hx harrivals) hrest hfirst hheard
      exact ⟨x :: before, rest, ageouts, sent, heard, rfl, halive⟩
    | cons arrived others =>
      rw [harrivals] at hfirst
      cases x with
      | sender y arrives =>
        simp only [arrivals] at harrivals
        split_ifs at harrivals
        obtain ⟨rfl, -⟩ := List.cons.inj harrivals
        obtain ⟨bytes, hcarries⟩ : ∃ bytes, p.carries? i y arrives = some bytes := by
          cases hcarries : p.carries? i y arrives with
          | some bytes => exact ⟨bytes, rfl⟩
          | none => simp [hcarries] at hfirst
        obtain ⟨s, hs, -⟩ := (Option.any_eq_true ..).1 hsteady.2
        have hages : (p.receiver.registry.known? k).map Prod.snd = some s.counters.ageouts := by
          rw [Registry.known?, Registry.memory?, hs]
          rfl
        exact ⟨[.sender y arrives], steps, _, _, _, rfl,
          alive_of_carries h.paced h.owns hages hsteady hrest.first hx hcarries⟩
      | receiver y => cases harrivals
      | pass ms => cases harrivals

/-- **How a port that was heard is shown**. -/
theorem peer_announcement (timing : Timing) (source : Mac) (name : String) :
    (Transmitter.announcement timing source name).peer =
      { chassis := source.text, port := name, hold := timing.ttl, info := {} } := by
  obtain ⟨hchassis, hname⟩ := Transmitter.text_announcement timing source name
  have hhold : (Transmitter.announcement timing source name).frame.ttlSecs = timing.ttl :=
    Nat.min_eq_left (Nat.min_le_right _ _)
  rw [Neighbor.peer, hchassis, hname, hhold]
  rfl

/-- What a port knows, in its session. -/
theorem exists_session?_of_known? {r : Registry} {n : Neighbor}
    (h : r.known? k = some (some n, ageouts)) :
    ∃ s, r.session? k = some s ∧ s.receiver.neighbor = some n ∧ s.counters.ageouts = ageouts := by
  obtain ⟨m, hm, hpair⟩ := Option.map_eq_some_iff.1 h
  obtain ⟨s, hs, rfl⟩ := Option.map_eq_some_iff.1 hm
  obtain ⟨hneighbor, hages⟩ := Prod.mk.inj hpair
  exact ⟨s, hs, hneighbor, hages⟩

/-- **A neighbour that is heard often enough is not forgotten.**  A port of one station is
started, whatever has happened to the station before, while the clock can count to its first
tick, and stays captured with its link up and its timing left alone; it is heard by a captured
port of another station, which nothing else reaches.  Requests to transmit are met at once,
and of the frames that answer them the first arrives, and then never more than `j` in a row do
not, whether they are lost or cannot be written.  If the time to live is more than `j + 1`
intervals, then from the first frame on the other port knows the first by its address, its
name and that time to live, and forgets no neighbour.

Of a port that cannot be advertised by its name nothing is said, since no frame of it
arrives. -/
theorem neighbor_kept_alive (settings settings' : Settings) (before before' : List Incident)
    (x : Incident) (i k : IfIndex) (s : Session) (j : Nat) (early late : List PairStep)
    (hidle : ((Station.ofSettings settings).run before).registry.isCapturing i = false)
    (hexpiry : Incident.expiry k ∉ before') :
    let p : Pair :=
      { sender := ((Station.ofSettings settings).run before).after x
        receiver := (Station.ofSettings settings').run before' }
    let timing := p.sender.registry.settings.timing
    p.sender.registry.session? i = some s →
    Ticker.reachable (p.sender.now + timing.period) = true →
    (j + 1) * timing.interval < timing.ttl →
    p.Connected i k (early ++ late) →
    (p.outcomes i k (early ++ late)).head? ≠ some false →
    ¬List.replicate (j + 1) false <:+: p.outcomes i k (early ++ late) →
    true ∈ p.outcomes i k early →
    ∃ s₀ s₁ n, (p.run i k early).receiver.registry.session? k = some s₀ ∧
      (p.run i k (early ++ late)).receiver.registry.session? k = some s₁ ∧
      s₁.counters.ageouts = s₀.counters.ageouts ∧ s₁.receiver.neighbor = some n ∧
      n.source = s.port.mac ∧
      n.peer = { chassis := s.port.mac.text, port := s.port.name, hold := timing.ttl, info := {} } := by
  intro p timing hs hreach hj hrun hfirst hlost hheard
  have hcapturing : p.sender.registry.isCapturing i = true :=
    Station.isCapturing_of_isOnAir hrun.first.1
  have hawaiting : p.Awaiting i k s.port timing :=
    ⟨Station.paced_of_started rfl hidle hcapturing (congrArg _ hs) hreach,
      Station.ownsAlarms_run settings' hexpiry⟩
  have hhead : (p.outcomes i k early).head? ≠ some false := by
    rw [outcomes_append] at hfirst
    cases houtcomes : p.outcomes i k early with
    | nil =>
      rw [houtcomes] at hheard
      cases hheard
    | cons arrived others =>
      rw [houtcomes] at hfirst
      exact hfirst
  obtain ⟨first, rest, ageouts, sent, heard, rfl, halive⟩ :=
    hawaiting.exists_alive hrun.start hhead hheard
  rw [List.append_assoc] at hrun hlost
  rw [outcomes_append] at hlost
  have hthen := hrun.rest
  have hkept : ¬List.replicate (j + 1) false <:+:
      List.replicate 0 false ++ (p.run i k first).outcomes i k (rest ++ late) := fun hrow =>
    hlost (hrow.trans (List.suffix_append _ _).isInfix)
  obtain ⟨_, _, _, hlast⟩ := halive.run hj hthen hkept
  have hkept' : ¬List.replicate (j + 1) false <:+:
      List.replicate 0 false ++ (p.run i k first).outcomes i k rest := fun hrow => by
    rw [outcomes_append] at hkept
    exact hkept (hrow.trans (List.prefix_append _ _).isInfix)
  obtain ⟨_, _, _, hmiddle⟩ := halive.run hj hthen.start hkept'
  obtain ⟨s₀, hs₀, -, hages₀⟩ := exists_session?_of_known? hmiddle.remembers.known
  obtain ⟨s₁, hs₁, hneighbor, hages₁⟩ := exists_session?_of_known? hlast.remembers.known
  rw [← run_append] at hs₀ hs₁
  rw [List.append_assoc]
  exact ⟨s₀, s₁, _, hs₀, hs₁, hages₁.trans hages₀.symm, hneighbor, rfl, peer_announcement ..⟩

/-! ### A bad wire -/

/-- The port of the sender. -/
def near : Port := { ifIndex := 1, number := 1, name := "Ethernet0", mac := ⟨2, 0, 0, 0, 0, 1⟩ }

/-- The port of the receiver is stopped, together with all others, and started again. -/
def restarted : List Incident :=
  [.operation (.request (.add
      { ifIndex := 7, number := 7, name := "Ethernet6", mac := ⟨2, 0, 0, 0, 0, 7⟩ })),
    .operation (.request (.reportLink 7 .up)), .shutdown, .operation (.start 7)]

/-- The two ends of a wire. -/
def wired : Pair where
  sender := ((Station.ofSettings {}).run [.operation (.request (.add near))]).after
    (.operation (.request (.reportLink 1 .up)))
  receiver := (Station.ofSettings {}).run restarted

/-- The ticker begins, and the first request is met. -/
def greeting : List PairStep := [.sender (.task (.ticker 1)) true, .sender (.trigger true) true]

/-- An interval, at the end of which a request is met. -/
def interval (arrives : Bool) : List PairStep :=
  [.pass 30000, .sender (.task (.ticker 1)) true, .sender (.trigger true) arrives]

/-- Of three more frames one is lost and one cannot be written. -/
def badly : List PairStep :=
  interval false ++ [.sender (.operation (.links (.failWrite "Ethernet0" true))) true] ++
    interval true ++ [.sender (.operation (.links (.failWrite "Ethernet0" false))) true] ++
    interval true ++ [.receiver (.operation (.fire 7))]

/-- **Two frames in a row** may be missed where four are promised. -/
theorem neighbor_kept_alive_badly :
    wired.outcomes 1 7 (greeting ++ badly) = [true, false, false, true] ∧
      ∃ s₀ s₁ n, (wired.run 1 7 greeting).receiver.registry.session? 7 = some s₀ ∧
        (wired.run 1 7 (greeting ++ badly)).receiver.registry.session? 7 = some s₁ ∧
        s₁.counters.ageouts = s₀.counters.ageouts ∧ s₁.receiver.neighbor = some n ∧
        n.source = near.mac ∧
        n.peer = { chassis := near.mac.text, port := near.name, hold := 120, info := {} } := by
  have hport : (wired.sender.registry.session? 1).map (·.port) = some near := by decide +kernel
  obtain ⟨s, hs, hport⟩ := Option.map_eq_some_iff.1 hport
  have hkept := neighbor_kept_alive {} {} [.operation (.request (.add near))] restarted
    (.operation (.request (.reportLink 1 .up))) 1 7 s 2 greeting badly (by decide +kernel)
    (by decide +kernel) hs (by decide +kernel) (by decide +kernel) (by decide +kernel)
    (by decide +kernel) (by decide +kernel) (by decide +kernel)
  rw [hport] at hkept
  exact ⟨by decide +kernel, hkept⟩

end Pair
end Lldp
