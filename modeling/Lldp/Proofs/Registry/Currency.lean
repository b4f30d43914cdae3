/-
# What goes out is current

A transmitter looks neither at its port nor at its timing while it keeps a
packet.  So the packet it keeps has to be the one it would build, and every event
that changes what it would build has to throw the kept one away, on every port
that it concerns.  `Advert.IsCurrent` says that this is so; every event keeps it
(`AllCurrent.react`).

How often packets are built is a matter of what is thrown away.  A port may build
once more than it has for as long as it keeps nothing (`Registry.budget`), and
only the events of `Registry.Clears` give it that leave anew.
-/

import Lldp.Proofs.Registry.Adverts
import Lldp.Proofs.Registry.Traffic
import Lldp.Proofs.Transmitter

namespace Lldp

/-- A port's timing is the one in force, the packet it keeps is the one it would
build, and if it has sent any then there is one to build. -/
structure Advert.IsCurrent (a : Advert) (timing : Timing) : Prop where
  adopted : a.timing = timing
  cached : ∀ bytes, a.cached = some bytes →
    Transmitter.packet timing a.port.mac a.port.name = .ok bytes
  sent : a.sent ≠ 0 → ∃ bytes, Transmitter.packet timing a.port.mac a.port.name = .ok bytes

namespace Advert.IsCurrent

variable {a : Advert} {timing timing' : Timing}

/-- A new port keeps no packet that could be out of date. -/
theorem ofPort (port : Port) (timing : Timing) : (Advert.ofPort port timing).IsCurrent timing where
  adopted := rfl
  cached _ h := by cases h
  sent h := absurd rfl h

/-- Nor does one whose packet is thrown away. -/
theorem clear (h : a.IsCurrent timing) : a.clear.IsCurrent timing where
  adopted := h.adopted
  cached _ hc := by cases hc
  sent := h.sent

/-- With nothing kept, a port is current under any timing that it adopts. -/
theorem retime (h : a.IsCurrent timing) : (a.retime timing').IsCurrent timing' where
  adopted := rfl
  cached _ hc := by cases hc
  sent hs := by
    obtain ⟨bytes, hb⟩ := h.sent hs
    exact Transmitter.packet_retimed hb

end Advert.IsCurrent

namespace Registry

variable {r r' : Registry} {i j : IfIndex} {s : Session} {now : Nat} {e : Event}

/-- Every port is current. -/
def AllCurrent (r : Registry) : Prop :=
  ∀ i a, r.advert? i = some a → a.IsCurrent r.settings.timing

namespace AllCurrent

/-- Where no port is registered, none is out of date. -/
theorem ofSettings (settings : Settings) : (Registry.ofSettings settings).AllCurrent := by
  intro i a ha
  cases ha

/-- To lose a kept packet is no harm. -/
theorem shed (h : r.AllCurrent) (k : Sheds r r') : r'.AllCurrent := by
  intro i a' ha'
  obtain ⟨a, ha, heq⟩ := k.advert i a' ha'
  rw [k.timing]
  rcases heq with rfl | rfl
  · exact h i a' ha
  · exact (h i a ha).clear

/-- A new port advertises with the timing in force. -/
theorem add (h : r.AllCurrent) (port : Port) : (r.add port).2.AllCurrent := by
  cases hs : r.session? port.ifIndex with
  | some s =>
    rw [add_of_session? hs]
    exact h
  | none =>
    intro i a ha
    rw [add_settings]
    rw [advert?_add hs] at ha
    split_ifs at ha
    · obtain rfl := Option.some.inj ha
      exact .ofPort port r.settings.timing
    · exact h i a ha

/-- To forget a port outdates no other. -/
theorem remove (h : r.AllCurrent) : (r.remove j).2.AllCurrent := by
  intro i a ha
  rw [remove_settings]
  rw [advert?_remove] at ha
  split_ifs at ha
  exact h i a ha

/-- **Other timing** is adopted by every port at once, and every kept packet is thrown away. -/
theorem retime (h : r.AllCurrent) {timing : Timing} : (r.retime timing).AllCurrent := by
  intro i a ha
  rw [advert?_retime] at ha
  obtain ⟨b, hb, rfl⟩ := Option.map_eq_some_iff.1 ha
  exact (h i b hb).retime

/-- The packet of a port that is current. -/
theorem fst_current (h : r.AllCurrent) (hs : r.session? i = some s) :
    (s.transmitter.current s.port.mac s.port.name).1 =
      match Transmitter.packet r.settings.timing s.port.mac s.port.name with
      | .ok bytes => bytes
      | .error _ => [] := by
  have hcur := h i s.advert (advert?_of_session? hs)
  have htiming : s.transmitter.timing = r.settings.timing := hcur.adopted
  rw [← htiming]
  refine Transmitter.fst_current fun bytes hb => ?_
  rw [htiming]
  exact hcur.cached bytes hb

/-- **A packet that is kept from now on** is the one that was just built. -/
theorem transmit (h : r.AllCurrent) : (r.handleTransmit j).AllCurrent := by
  have hset : (r.handleTransmit j).settings = r.settings := by
    rcases handleTransmit_cases r j with
      ⟨-, heq⟩ | ⟨s, c, -, -, ⟨-, heq⟩ | ⟨-, -, heq⟩ | ⟨-, lo', -, heq⟩⟩
    all_goals rw [heq]
    all_goals rfl
  intro i a' ha'
  rw [hset]
  by_cases hi : i = j
  · subst hi
    rcases advert?_handleTransmit r i with
      hsame | ⟨-, a, b, ha, hb, hport, htiming, hsent, hcached, -⟩ |
        ⟨a, bytes, ha, ⟨hkept, hb⟩ | ⟨-, hp, hb⟩⟩
    · exact h i a' (hsame ▸ ha')
    · obtain rfl := Option.some.inj (hb.symm.trans ha')
      have hcur := h i a ha
      refine ⟨htiming.trans hcur.adopted, fun bytes hbytes => ?_, ?_⟩
      · rcases hcached with hnone | hsame
        · cases hnone.symm.trans hbytes
        · rw [hport]
          exact hcur.cached bytes (hsame.symm.trans hbytes)
      · rw [hsent, hport]
        exact hcur.sent
    · obtain rfl := Option.some.inj (hb.symm.trans ha')
      have hcur := h i a ha
      exact ⟨hcur.adopted, hcur.cached, fun _ => ⟨bytes, hcur.cached bytes hkept⟩⟩
    · obtain rfl := Option.some.inj (hb.symm.trans ha')
      have hcur := h i a ha
      rw [hcur.adopted] at hp
      refine ⟨hcur.adopted, fun other hother => ?_, fun _ => ⟨bytes, hp⟩⟩
      obtain rfl := Option.some.inj hother
      exact hp
  · rw [advert?_handleTransmit_of_ne hi] at ha'
    exact h i a' ha'

/-- A change of settings leaves every port current. -/
theorem apply (h : r.AllCurrent) {change : Change} : (r.apply change).2.AllCurrent := by
  cases change with
  | globalEnable on =>
    have hset : Sheds r (r.setEnabled on) := .of_eq rfl fun _ => advert?_setEnabled
    exact h.shed (hset.trans (.followAll _))
  | portEnable i on =>
    have hset : Sheds r (r.setPortEnabled i on) := .of_eq rfl fun _ => advert?_setPortEnabled
    rw [apply_portEnable]
    exact h.shed (hset.trans .follow)
  | timing interval multiplier =>
    rcases apply_timing_cases r interval multiplier with ⟨-, heq⟩ | ⟨timing, -, -, heq⟩
    · rw [heq]
      exact h
    · rw [heq]
      exact h.retime

/-- **Every event keeps every port current.** -/
theorem react (h : r.AllCurrent) (e : Event) : (r.react now e).AllCurrent := by
  cases e with
  | request q =>
    cases q with
    | add port => exact h.add port
    | remove i => exact h.remove
    | reportLink i state =>
      have hset : Sheds r (r.setLink i state).2 :=
        .of_eq (by rw [setLink_snd, modify_settings]) fun _ => advert?_setLink
      change (r.reportLink i state).2.AllCurrent
      rw [reportLink_snd]
      exact h.shed (hset.trans .follow)
    | neighbors start count => exact h
    | counters i => exact h
    | apply change => exact h.apply
  | setLink i state =>
    exact h.shed (.of_eq (by simp only [Registry.react, setLink_snd, modify_settings])
      fun _ => advert?_setLink)
  | start i =>
    have hstart : Sheds r (r.follow i true) := .follow
    exact h.shed hstart
  | stop i =>
    have hstop : Sheds r (r.follow i false) := .follow
    exact h.shed hstop
  | inbound packet =>
    exact h.shed (.of_eq (by simp only [Registry.react, handleInbound_settings])
      fun _ => advert?_handleInbound)
  | transmit i => exact h.transmit
  | expire key =>
    cases ha : r.alarms.dueUnder? now key with
    | none =>
      simp only [Registry.react, ha]
      exact h
    | some a =>
      simp only [Registry.react, ha]
      refine h.shed (.of_eq ?_ fun _ => advert?_expire)
      rw [Registry.expire, handleExpiry_frame.1]
  | surround x => exact h.shed (.of_eq rfl fun _ => advert?_surround)
  | pass ms => exact h

end AllCurrent

/-! ### How often packets are built -/

/-- How many packets were built for a port since it was registered. -/
def builds (r : Registry) (i : IfIndex) : Nat := (r.advert? i).elim 0 Advert.builds

/-- How many packets will have been built for a port before the one that is built
next is thrown away. -/
def budget (r : Registry) (i : IfIndex) : Nat :=
  (r.advert? i).elim 1 fun a => a.builds + if a.cached = none then 1 else 0

/-- The events that make a port throw its kept packet away: it is stopped or
forgotten, other timing is adopted, or a packet cannot be built or written. -/
inductive Clears (r : Registry) (i : IfIndex) : Event → Prop where
  | stop : Clears r i (.stop i)
  | linkDown : Clears r i (.request (.reportLink i .down))
  | disable : Clears r i (.request (.apply (.portEnable i false)))
  | disableAll : Clears r i (.request (.apply (.globalEnable false)))
  | remove : Clears r i (.request (.remove i))
  | retime {interval multiplier : Nat} (hi : interval ≠ 0) (hm : multiplier ≠ 0) :
      Clears r i (.request (.apply (.timing interval multiplier)))
  | sendFails (h : r.SendFails i) : Clears r i (.transmit i)

/-- What becomes of a port's advert: it stays, the port is registered, the kept
packet is thrown away, or a packet is sent. -/
inductive Turn (r : Registry) (i : IfIndex) (e : Event) (after : Option Advert) : Prop where
  | stays (h : after = r.advert? i)
  | registers {port : Port} {timing : Timing} (h : r.advert? i = none)
      (hafter : after = some (.ofPort port timing))
  | forgets (hclear : r.Clears i e) (hafter : after = none)
  | clears {a a' : Advert} (hclear : r.Clears i e) (h : r.advert? i = some a)
      (hafter : after = some a') (hbuilds : a'.builds ≤ a.builds + if a.cached = none then 1 else 0)
  | resends {a : Advert} (h : r.advert? i = some a)
      (hafter : after = some { a with sent := a.sent + 1 })
  | sends {a : Advert} {bytes : Octets} (h : r.advert? i = some a) (hnone : a.cached = none)
      (hafter : after =
        some { a with cached := some bytes, builds := a.builds + 1, sent := a.sent + 1 })

/-- To throw the kept packet away takes no build. -/
theorem Turn.of_map {after : Option Advert} {f : Advert → Advert} (hclear : r.Clears i e)
    (hafter : after = (r.advert? i).map f) (hf : ∀ a, (f a).builds = a.builds) :
    r.Turn i e after := by
  cases ha : r.advert? i with
  | none => exact .forgets hclear (by rw [hafter, ha, Option.map_none])
  | some a =>
    refine .clears hclear ha (by rw [hafter, ha, Option.map_some]) ?_
    rw [hf]
    exact Nat.le_add_right _ _

/-- **A request to transmit** sends the packet of its port or throws it away, if it does
anything. -/
theorem turn_transmit : r.Turn i (.transmit j) ((r.handleTransmit j).advert? i) := by
  by_cases hi : i = j
  · subst hi
    rcases advert?_handleTransmit r i with
      hsame | ⟨hfail, a, a', ha, ha', -, -, -, -, hbuilds⟩ |
        ⟨a, bytes, ha, ⟨-, hafter⟩ | ⟨hnone, -, hafter⟩⟩
    · exact .stays hsame
    · exact .clears (.sendFails hfail) ha ha' hbuilds
    · exact .resends ha hafter
    · exact .sends ha hnone hafter
  · exact .stays (advert?_handleTransmit_of_ne hi)

/-- A port that is started keeps its packet, and one that is stopped loses it. -/
theorem turn_follow {on : Bool} (hsame : r'.advert? i = r.advert? i)
    (hclear : i = j → on = false → r.Clears i e) : r.Turn i e ((r'.follow j on).advert? i) := by
  rw [advert?_follow, hsame]
  split_ifs with hoff
  · exact .of_map (hclear hoff.1 hoff.2) rfl fun _ => rfl
  · exact .stays rfl

/-- A change of settings outdates packets only if it stops a port or is one of timing. -/
theorem turn_apply {change : Change} :
    r.Turn i (.request (.apply change)) ((r.apply change).2.advert? i) := by
  cases change with
  | globalEnable on =>
    cases on with
    | true => exact .stays (advert?_followAll_on _)
    | false =>
      have hset : Sheds r (r.setEnabled false) := .of_eq rfl fun _ => advert?_setEnabled
      have hall : Sheds r (r.apply (.globalEnable false)).2 := hset.trans (.followAll _)
      cases hafter : (r.apply (.globalEnable false)).2.advert? i with
      | none => exact .forgets .disableAll rfl
      | some a' =>
        obtain ⟨a, ha, heq⟩ := hall.advert i a' hafter
        refine .clears .disableAll ha rfl ?_
        rcases heq with rfl | rfl
        · exact Nat.le_add_right _ _
        · exact Nat.le_add_right _ _
  | portEnable j on =>
    rw [apply_portEnable]
    refine turn_follow advert?_setPortEnabled ?_
    rintro rfl rfl
    exact .disable
  | timing interval multiplier =>
    rcases apply_timing_cases r interval multiplier with ⟨-, heq⟩ | ⟨timing, rfl, rfl, heq⟩
    · rw [heq]
      exact .stays rfl
    · have hi : timing.interval ≠ 0 := Nat.ne_of_gt timing.interval_pos
      have hm : timing.multiplier ≠ 0 := Nat.ne_of_gt timing.multiplier_pos
      rw [heq]
      exact .of_map (.retime hi hm) advert?_retime fun _ => rfl

/-- **Every event** does one of these to every port. -/
theorem turn_react (r : Registry) (now : Nat) (i : IfIndex) (e : Event) :
    r.Turn i e ((r.react now e).advert? i) := by
  cases e with
  | request q =>
    cases q with
    | add port =>
      change r.Turn i _ ((r.add port).2.advert? i)
      cases hs : r.session? port.ifIndex with
      | some s =>
        rw [add_of_session? hs]
        exact .stays rfl
      | none =>
        rw [advert?_add hs]
        split_ifs with hi
        · exact .registers (by rw [advert?, hi, hs, Option.map_none]) rfl
        · exact .stays rfl
    | remove j =>
      change r.Turn i _ ((r.remove j).2.advert? i)
      rw [advert?_remove]
      split_ifs with hi
      · subst hi
        exact .forgets .remove rfl
      · exact .stays rfl
    | reportLink j state =>
      change r.Turn i _ ((r.reportLink j state).2.advert? i)
      rw [reportLink_snd]
      refine turn_follow advert?_setLink ?_
      rintro rfl hoff
      cases state with
      | up => simp at hoff
      | down => exact .linkDown
    | neighbors start count => exact .stays rfl
    | counters j => exact .stays rfl
    | apply change => exact turn_apply
  | setLink j state => exact .stays advert?_setLink
  | start j => exact .stays advert?_start
  | stop j =>
    have hstop : r.Turn i (.stop j) ((r.follow j false).advert? i) := by
      refine turn_follow rfl ?_
      rintro rfl -
      exact .stop
    exact hstop
  | inbound packet => exact .stays advert?_handleInbound
  | transmit j => exact turn_transmit
  | expire key =>
    cases ha : r.alarms.dueUnder? now key with
    | none =>
      simp only [react, ha]
      exact .stays rfl
    | some a =>
      simp only [react, ha]
      exact .stays advert?_expire
  | surround x => exact .stays advert?_surround
  | pass ms => exact .stays rfl

/-- No event builds more packets than the budget allows. -/
theorem builds_react_le : (r.react now e).builds i ≤ r.budget i := by
  unfold builds budget
  cases turn_react r now i e with
  | stays h =>
    rw [h]
    cases r.advert? i with
    | none => exact Nat.zero_le _
    | some a => exact Nat.le_add_right _ _
  | registers h hafter =>
    rw [hafter]
    exact Nat.zero_le _
  | forgets _ hafter =>
    rw [hafter]
    exact Nat.zero_le _
  | clears _ h hafter hbuilds =>
    rw [h, hafter]
    exact hbuilds
  | resends h hafter =>
    rw [h, hafter]
    exact Nat.le_add_right _ _
  | sends h hnone hafter =>
    rw [h, hafter]
    simp [hnone]

/-- **Only what throws the kept packet away raises the budget.** -/
theorem budget_react_le (hclear : ¬r.Clears i e) : (r.react now e).budget i ≤ r.budget i := by
  unfold budget
  cases turn_react r now i e with
  | stays h => exact Nat.le_of_eq (by rw [h])
  | registers h hafter =>
    rw [h, hafter]
    exact Nat.le_refl _
  | forgets hc _ => exact absurd hc hclear
  | clears hc _ _ _ => exact absurd hc hclear
  | resends h hafter =>
    rw [h, hafter]
    exact Nat.le_refl _
  | sends h hnone hafter =>
    rw [h, hafter]
    simp [hnone]

/-- One packet may be built at the most before one has to be thrown away. -/
theorem budget_le_succ : r.budget i ≤ r.builds i + 1 := by
  unfold budget builds
  cases r.advert? i with
  | none => exact Nat.le_refl _
  | some a =>
    simp only [Option.elim_some]
    split_ifs <;> omega

/-- **A port that cannot be advertised** has a failure counted for every request
that finds it captured, and is as it was otherwise. -/
theorem handleTransmit_of_error (h : r.AllCurrent) (hs : r.session? i = some s) {err : Error}
    (hp : Transmitter.packet r.settings.timing s.port.mac s.port.name = .error err) :
    (∀ link, (r.handleTransmit i).backend.sentAt link = r.backend.sentAt link) ∧
      (s.isCapturing = true → (r.handleTransmit i).session? i =
        some { s with
          counters := { s.counters with sendFailures := s.counters.sendFailures + 1 } }) := by
  have hnil : (s.transmitter.current s.port.mac s.port.name).1 = [] := by
    rw [h.fst_current hs, hp]
  rcases handleTransmit_cases r i with
    ⟨hidle, heq⟩ | ⟨t, c, ht, -, ⟨-, heq⟩ | ⟨hne, -, -⟩ | ⟨hne, -⟩⟩
  · rw [heq]
    refine ⟨fun _ => rfl, fun hc => ?_⟩
    simp [Session.isCapturing, hidle s hs] at hc
  · obtain rfl := Option.some.inj (hs.symm.trans ht)
    rw [heq, Transmitter.snd_current_of_nil hnil]
    refine ⟨fun _ => rfl, fun _ => ?_⟩
    simp only [session?_modify, Session.countSendFailure, implies_true, if_true]
    rw [hs]
    rfl
  · obtain rfl := Option.some.inj (hs.symm.trans ht)
    exact absurd hnil hne
  · obtain rfl := Option.some.inj (hs.symm.trans ht)
    exact absurd hnil hne

end Registry

namespace Moment

open Registry

variable {m : Moment} {i : IfIndex} {events : List Event}

/-- Every port is current at any moment. -/
theorem allCurrent_run (settings : Settings) (events : List Event) :
    ((Moment.ofSettings settings).run events).registry.AllCurrent :=
  run_invariant events (fun e _ _ _ h => h.react e) _ (.ofSettings settings)

/-- **As long as nothing is thrown away**, a port does not come to build more than it may
already. -/
theorem budget_run_le (h : m.Throughout (fun m e => ¬m.registry.Clears i e) events) :
    (m.run events).registry.budget i ≤ m.registry.budget i := by
  induction events generalizing m with
  | nil => exact Nat.le_refl _
  | cons e events ih => exact Nat.le_trans (ih h.tail) (budget_react_le h.head)

/-- **Whatever goes out is current.**  After any course of events, a frame that a
registry puts on a link goes out through the capture of the port that was asked
to transmit, and it is the one that this port's address and name and the timing
then in force call for: what a port gives out is what it would build anew.
Between two events that make a port throw its packet away, and together with the
second of them, at most one packet is built for it.  A port for which no packet
can be built has never sent any, and every request to transmit that finds it
captured puts nothing on any link and counts as a failure. -/
theorem sends_current (settings : Settings) (events : List Event) :
    let m := (Moment.ofSettings settings).run events
    let r := m.registry
    (∀ e link, (∀ x, e ≠ .surround x) →
      (r.react m.now e).backend.sentAt link ≠ r.backend.sentAt link →
      ∃ i s c hd frame, e = .transmit i ∧ r.session? i = some s ∧ s.capture = some c ∧
        r.backend.handles[c.handle]? = some hd ∧ hd.link = link ∧
        Frame.encode
          { chassis := .ofMac s.port.mac
            port := .ofInterface s.port.name
            ttl := .ofSecs (min 65535 (r.settings.timing.interval * r.settings.timing.multiplier))
            optional := [] } = .ok frame ∧
        (r.react m.now e).backend.sentAt link =
          r.backend.sentAt link ++ [Ethernet.build s.port.mac frame]) ∧
      (∀ i s, r.session? i = some s →
        (s.transmitter.current s.port.mac s.port.name).1 =
          ((s.transmitter.setTiming r.settings.timing).build s.port.mac s.port.name).1) ∧
      (∀ i later e, m.Throughout (fun m e => ¬m.registry.Clears i e) later →
        (m.run (later ++ [e])).registry.builds i ≤ r.builds i + 1) ∧
      ∀ i s err, r.session? i = some s →
        Transmitter.packet r.settings.timing s.port.mac s.port.name = .error err →
        s.counters.sent = 0 ∧
          (∀ link, (r.handleTransmit i).backend.sentAt link = r.backend.sentAt link) ∧
          (s.isCapturing = true → (r.handleTransmit i).session? i =
            some { s with
              counters := { s.counters with sendFailures := s.counters.sendFailures + 1 } }) := by
  intro m r
  have hcur : r.AllCurrent := allCurrent_run settings events
  refine ⟨fun e link hx hsent => ?_, fun i s hs => ?_, fun i later e hkeeps => ?_,
    fun i s err hs hp => ?_⟩
  · obtain ⟨i, s, c, hd, rfl, hs, hc, hhd, hlink, hne, happ⟩ := exists_of_sentAt_ne hx hsent
    rw [hcur.fst_current hs] at hne happ
    cases hp : Transmitter.packet r.settings.timing s.port.mac s.port.name with
    | error e =>
      rw [hp] at hne
      exact absurd rfl hne
    | ok bytes =>
      rw [hp] at happ
      obtain ⟨frame, hframe, rfl⟩ := Transmitter.of_packet hp
      rw [Transmitter.frame, Timing.ttl, Nat.min_comm] at hframe
      exact ⟨i, s, c, hd, frame, rfl, hs, hc, hhd, hlink, hframe, happ⟩
  · rw [hcur.fst_current hs, Transmitter.build, Transmitter.setTiming]
    cases Transmitter.packet r.settings.timing s.port.mac s.port.name <;> rfl
  · have hbudget : (m.run later).registry.budget i ≤ r.budget i := budget_run_le hkeeps
    have hbuild : (m.run (later ++ [e])).registry.builds i ≤ (m.run later).registry.budget i := by
      rw [run_append]
      exact builds_react_le
    have hone : r.budget i ≤ r.builds i + 1 := budget_le_succ
    omega
  · refine ⟨?_, handleTransmit_of_error hcur hs hp⟩
    by_contra hsent
    obtain ⟨bytes, hb⟩ := (hcur i s.advert (advert?_of_session? hs)).sent hsent
    cases hp.symm.trans hb

end Moment
end Lldp
