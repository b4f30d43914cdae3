/-
# What becomes of the frames that arrive for a port

A frame that arrives while a port is captured should be handed over for it, once, in the
order of arrival.  It may not be: all handles of an interface read from one link, and
whether a handle is open is only looked at before a read queues there.  So the task of a
capture that was replaced can still be in a read, take the frame, and drop it because the
port has another capture by now (`lost_to_rival`).

This is the only way in which frames are lost.  Those that are on their way to a port
through its capture, and those that arrive, are one list (`Station.underway`), from which
the mailbox is emptied in order; only a rival, a task that was in a read of that link when
the port was captured, takes a frame from it, and it takes one at the most
(`framesOf_deliveries`).  When no task can make a step, nothing is left of the list
(`underway_of_able`).  So what is handed over is what was to arrive, but for one frame at
the most for each rival (`delivered`); without rivals it is all that arrived.

What else is handed over for the port was on its way before, read through an earlier
capture (`mem_inFlight_of_deliveries`).  What the port has heard is what was handed over
for it (`heard_perform`), whether it could be read or not.
-/

import Lldp.Proofs.Acts
import Lldp.Proofs.Neighbor

namespace Lldp
namespace Service

variable {s : Service} {a : Act} {acts : List Act} {i : IfIndex} {c : Capture} {name : String}
  {p : Inbound}

/-! ### When nothing can go on -/

/-- A dispatcher that has nothing to serve has not been told to end. -/
theorem live_of_able (hrunning : s.running = true) (hable : s.able = []) : s.Live := by
  refine ⟨hrunning, Bool.eq_false_iff.2 fun hexit => ?_⟩
  have hready : s.dispatcherReady = true := by simp [dispatcherReady, hrunning, hexit]
  simp [able, hready] at hable

/-- **When no task can go on**, nothing is underway. -/
theorem underway_of_able (h : s.station.Tended) (hc : s.station.registry.capture? i = some c)
    (hrunning : s.running = true) (hable : s.able = []) : s.station.underway i c = [] := by
  have hidle : s.dispatcherReady = false := by
    refine Bool.eq_false_iff.2 fun hready => ?_
    simp [able, hready] at hable
  have hitems : s.station.inbound.items = [] := by
    by_contra hne
    simp [dispatcherReady, hrunning, hne] at hidle
  refine h.underway_eq_nil hc (fun t ht => Bool.eq_false_iff.2 fun hready => ?_) hitems
  have hmem : ServiceTask.station (.capture t.generation) ∈ s.able := by
    refine List.mem_append_right _ (List.mem_map_of_mem (List.mem_append_left _ ?_))
    exact List.mem_map_of_mem (f := (StationTask.capture ·.generation))
      (List.mem_filter.2 ⟨ht, hready⟩)
  rw [hable] at hmem
  cases hmem

/-! ### Along a run -/

/-- The port is captured and every interface is used by one port. -/
def Captures (i : IfIndex) (s : Service) : Prop :=
  s.station.registry.isCapturing i = true ∧ s.station.registry.NamesApart

instance (i : IfIndex) : DecidablePred (Captures i) := fun s =>
  inferInstanceAs (Decidable (s.station.registry.isCapturing i = true ∧ _))

/-- A service in its routine, a port of which listens. -/
structure Listens (i : IfIndex) (c : Capture) (name : String) (s : Service) : Prop where
  live : s.Live
  station : s.station.Listens i c name

theorem Listens.act (h : Listens i c name s) (hlive : (s.act a).Live)
    (hcaptures : Captures i (s.act a)) : Listens i c name (s.act a) := by
  refine ⟨hlive, ?_⟩
  rcases act_cases h.station.tended.sound.alarms hlive with ⟨heq, -⟩ | ⟨x, hx, heq, -⟩
  · rw [heq]
    exact h.station
  · obtain ⟨hcapturing, hapart⟩ := hcaptures
    rw [heq] at hcapturing hapart ⊢
    exact h.station.after hx hcapturing hapart

/-- **A port that stays captured** listens all along, through the same capture. -/
theorem Listens.always (h : Listens i c name s)
    (hall : Trace.Always Service.act (Captures i) s acts) (hlive : (s.perform acts).Live) :
    Trace.Always Service.act (Listens i c name) s acts := by
  induction acts generalizing s with
  | nil => exact .nil h
  | cons a acts ih =>
    have hthen : ((s.act a).perform acts).Live := hlive
    have hnext : (s.act a).Live := hthen.of_perform
    exact .cons h (ih (h.act hnext hall.tail.first) hall.tail hlive)

/-- **One act** and what is underway. -/
theorem Listens.flow (h : Listens i c name s) (hthen : Listens i c name (s.act a)) :
    (((s.handed a).filter (Station.isFor i c.generation)).map Inbound.bytes ++
        (s.act a).station.underway i c).Sublist (s.station.underway i c ++ a.injected name) ∧
      (s.station.underway i c ++ a.injected name).length +
          ((s.act a).station.rivals c).length ≤
        (((s.handed a).filter (Station.isFor i c.generation)).map Inbound.bytes ++
          (s.act a).station.underway i c).length + (s.station.rivals c).length := by
  rcases act_cases h.station.tended.sound.alarms hthen.live with
    ⟨heq, hnone, hinjected⟩ | ⟨x, hx, heq, hhanded, hinjected⟩
  · rw [heq, hnone, hinjected, List.append_nil]
    exact ⟨List.Sublist.refl _, Nat.le_refl _⟩
  · rw [heq, hhanded, hinjected]
    exact h.station.flow hx

/-- One act and what the port has heard. -/
theorem Listens.heard (h : Listens i c name s) (hthen : Listens i c name (s.act a)) :
    (s.act a).station.registry.heard i =
      s.station.registry.heard i + ((s.handed a).filter (·.ifIndex = i)).length := by
  have hregistered := Registry.isRegistered_of_capture? hthen.station.capture?
  rcases act_cases h.station.tended.sound.alarms hthen.live with
    ⟨heq, hnone, -⟩ | ⟨x, hx, heq, hhanded, -⟩
  · rw [heq, hnone]
    rfl
  · rw [heq] at hregistered ⊢
    rw [hhanded]
    exact h.station.tended.heard_after hx h.station.isCapturing hregistered

/-- One act and the packets that were not read through the capture. -/
theorem Listens.mem_inFlight (h : Listens i c name s) (hthen : Listens i c name (s.act a))
    (hp : p ∈ (s.act a).station.inFlight) (hi : p.ifIndex = i)
    (hg : p.generation ≠ c.generation) : p ∈ s.station.inFlight := by
  rcases act_cases h.station.tended.sound.alarms hthen.live with ⟨heq, -⟩ | ⟨x, hx, heq, -⟩
  · rw [heq] at hp
    exact hp
  · rw [heq] at hp
    exact h.station.mem_inFlight hx hp hi hg

theorem mem_items_of_handed (hp : p ∈ s.handed a) : p ∈ s.station.inbound.items := by
  unfold handed at hp
  split at hp
  · split_ifs at hp
    · exact List.mem_of_mem_take hp
    · cases hp
  · cases hp

/-! ### A run -/

/-- The packets that a run hands over for a port, in their order. -/
def deliveries (s : Service) (i : IfIndex) (acts : List Act) : List Inbound :=
  (Trace.outputs act handed s acts).filter (·.ifIndex = i)

/-- The frames of those that were read through a capture. -/
def framesOf (c : Capture) (ps : List Inbound) : List Octets :=
  (ps.filter (·.generation = c.generation)).map Inbound.bytes

/-- **A run** and what is underway. -/
theorem framesOf_deliveries (hall : Trace.Always act (Listens i c name) s acts) :
    (framesOf c (s.deliveries i acts) ++ (s.perform acts).station.underway i c).Sublist
        (s.station.underway i c ++ acts.flatMap (Act.injected name)) ∧
      (s.station.underway i c ++ acts.flatMap (Act.injected name)).length +
          ((s.perform acts).station.rivals c).length ≤
        (framesOf c (s.deliveries i acts) ++ (s.perform acts).station.underway i c).length +
          (s.station.rivals c).length := by
  have hframes : framesOf c (s.deliveries i acts) = Trace.outputs act
      (fun s a => ((s.handed a).filter (Station.isFor i c.generation)).map Inbound.bytes)
      s acts := by
    rw [framesOf, deliveries, List.filter_filter, ← Trace.outputs_map, ← Trace.outputs_filter]
    congr 2
    funext p
    exact (Bool.and_comm _ _).trans (Bool.decide_and _ _).symm
  rw [hframes, ← Trace.outputs_eq_flatMap s acts]
  exact Trace.outputs_conserved (fun s => s.station.underway i c)
    (fun s => (s.station.rivals c).length) (fun _ _ h hthen => h.flow hthen) hall

/-- **A run** and what the port has heard. -/
theorem heard_perform (hall : Trace.Always act (Listens i c name) s acts) :
    (s.perform acts).station.registry.heard i =
      s.station.registry.heard i + (s.deliveries i acts).length := by
  rw [deliveries, Trace.outputs_filter]
  exact Trace.count_outputs (fun s => s.station.registry.heard i)
    (fun _ _ h hthen => h.heard hthen) hall

/-- **What was not read through the capture** was on its way when the run began. -/
theorem mem_inFlight_of_deliveries (hall : Trace.Always act (Listens i c name) s acts)
    (hp : p ∈ s.deliveries i acts) (hg : p.generation ≠ c.generation) : p ∈ s.station.inFlight := by
  obtain ⟨hhanded, hi⟩ := List.mem_filter.1 hp
  have hin : p.ifIndex = i := of_decide_eq_true hi
  have hback : p.ifIndex = i → p.generation ≠ c.generation → p ∈ s.station.inFlight :=
    @Trace.of_mem_outputs _ _ _ _ _ _ _ _
      (fun s p => p.ifIndex = i → p.generation ≠ c.generation → p ∈ s.station.inFlight) _
      (fun _ _ _ _ _ hp _ _ => Station.mem_inFlight_of_items (mem_items_of_handed hp))
      (fun _ _ _ h hthen hlater hi hg => h.mem_inFlight hthen (hlater hi hg) hi hg) hall hhanded
  exact hback hin hg

/-- **No frame is lost but to a rival.**  A port is captured, and stays so through whatever
happens until no task can go on.  The frames that were read for it through this capture
and handed over are, in their order, those that were underway and those that arrived on
its interface, but for one at the most for each rival; without rivals they are all of
these.  Whatever else is handed over for the port was on its way before, and the port has
heard as many frames as were handed over for it.  So if at first there are no rivals, and
nothing is on its way to the port, just what arrives is handed over, once and in order,
and is counted. -/
theorem delivered (settings : Settings) (early late : List Act) (i : IfIndex) :
    let s := (ofSettings settings).perform early
    let s' := s.perform late
    ∀ port c, s.station.registry.session? i = some port → port.capture = some c →
      Trace.Always act (Captures i) s late → s'.running = true → s'.able = [] →
      let arrived := late.flatMap (Act.injected port.port.name)
      let frames := s.station.underway i c ++ arrived
      let own := framesOf c (s.deliveries i late)
      own.Sublist frames ∧ frames.length ≤ own.length + (s.station.rivals c).length ∧
        (s.station.rivals c = [] → own = frames) ∧
        (∀ p ∈ s.deliveries i late, p.generation = c.generation ∨ p ∈ s.station.inFlight) ∧
        s'.station.registry.heard i =
          s.station.registry.heard i + (s.deliveries i late).length ∧
        (s.station.rivals c = [] → s.station.underway i c = [] →
          (∀ p ∈ s.station.inFlight, p.ifIndex ≠ i) →
          (s.deliveries i late).map Inbound.bytes = arrived ∧
            s'.station.registry.heard i = s.station.registry.heard i + arrived.length) := by
  intro s s' port c hport hc hall hrunning hable arrived frames own
  have hlive : s'.Live := live_of_able hrunning hable
  have hfirst : Listens i c port.port.name s :=
    ⟨hlive.of_perform, tended_perform settings early hlive.of_perform, hall.first.2,
      port, hport, hc, rfl⟩
  have halways : Trace.Always act (Listens i c port.port.name) s late := hfirst.always hall hlive
  have hlast : Listens i c port.port.name s' := halways.last
  have hempty : s'.station.underway i c = [] :=
    underway_of_able hlast.station.tended hlast.station.capture? hrunning hable
  obtain ⟨hsublist, hlength⟩ := framesOf_deliveries halways
  rw [hempty, List.append_nil] at hsublist hlength
  have hfew : frames.length ≤ own.length + (s.station.rivals c).length :=
    Nat.le_trans (Nat.le_add_right ..) hlength
  have hexact : s.station.rivals c = [] → own = frames := by
    intro hnone
    rw [hnone] at hfew
    exact hsublist.eq_of_length_le hfew
  have hstrangers : ∀ p ∈ s.deliveries i late,
      p.generation = c.generation ∨ p ∈ s.station.inFlight := fun p hp =>
    or_iff_not_imp_left.2 (mem_inFlight_of_deliveries halways hp)
  have hheard := heard_perform halways
  refine ⟨hsublist, hfew, hexact, hstrangers, hheard, fun hnone hidle hclean => ?_⟩
  have hown : (s.deliveries i late).filter (·.generation = c.generation) = s.deliveries i late := by
    refine List.filter_eq_self.2 fun p hp => decide_eq_true ?_
    refine (hstrangers p hp).resolve_right fun hflight => hclean p hflight ?_
    exact of_decide_eq_true (List.mem_filter.1 hp).2
  have hbytes : (s.deliveries i late).map Inbound.bytes = arrived := by
    calc (s.deliveries i late).map Inbound.bytes
        = own := congrArg (List.map Inbound.bytes) hown.symm
      _ = frames := hexact hnone
      _ = [] ++ arrived := congrArg (· ++ arrived) hidle
  exact ⟨hbytes, by rw [hheard, ← hbytes, List.length_map]⟩

/-- Something is asked for, and answered. -/
def asking (request : Request) : List Act :=
  [.submit operator request, .task .dispatcher, .collect operator]

/-- The task of a capture makes some steps. -/
def reading (generation steps : Nat) : List Act :=
  List.replicate steps (.task (.station (.capture generation)))

/-- Port 1 is captured, and its task waits for a frame. -/
def listening : List Act :=
  asking (.add { ifIndex := 1, number := 1, name := "Ethernet0", mac := ⟨2, 0, 0, 0, 0, 1⟩ }) ++
    asking (.reportLink 1 .up) ++ reading 1 5

/-- The frame of a neighbour. -/
def greeting : Octets := Ethernet.build Receiver.writer.source Receiver.writtenUnit

/-- The frame and one that says nothing come; the task reads both. -/
def greeted : List Act :=
  .links (.inject "Ethernet0" [greeting, [0, 1]]) :: .task (.station (.ticker 1)) ::
    reading 1 16 ++ List.replicate 4 (.task .dispatcher)

/-- Both are handed over, in their order, and counted. -/
theorem greeted_in_order :
    let s := (ofSettings {}).perform listening
    (s.deliveries 1 greeted).map Inbound.bytes = [greeting, [0, 1]] ∧
      (s.perform greeted).station.registry.heard 1 = s.station.registry.heard 1 + 2 := by
  intro s
  have hport : (s.station.registry.session? 1).map (fun s => (s.port.name, s.capture)) =
      some ("Ethernet0", some ⟨1, 0⟩) := by decide +kernel
  obtain ⟨port, hsession, heq⟩ := Option.map_eq_some_iff.1 hport
  obtain ⟨hname, hc⟩ := Prod.mk.inj heq
  have harrived : greeted.flatMap (Act.injected port.port.name) = [greeting, [0, 1]] := by
    rw [hname]
    rfl
  obtain ⟨-, -, -, -, -, hclean⟩ := delivered {} listening greeted 1 port ⟨1, 0⟩ hsession hc
    (by decide +kernel) (by decide +kernel) (by decide +kernel)
  obtain ⟨hframes, hheard⟩ := hclean (by decide +kernel) (by decide +kernel) (by decide +kernel)
  have htwo : ([greeting, [0, 1]] : List Octets).length = 2 := rfl
  exact ⟨hframes.trans harrived, by rw [hheard, harrived, htwo]⟩

/-- Its link goes down and comes up again while the task waits, and the task of the second
capture queues behind it. -/
def restarted : List Act :=
  listening ++ asking (.reportLink 1 .down) ++ asking (.reportLink 1 .up) ++ reading 2 4 ++
    .task (.station (.ticker 1)) :: List.replicate 4 (.task .dispatcher)

/-- The frame comes; the task of the first capture reads it, and then that of the second
waits. -/
def missed : List Act :=
  .links (.inject "Ethernet0" [greeting]) :: reading 1 2 ++ reading 2 2

/-- **A frame is lost to a rival.**  Nothing is left to do when it comes, the port stays
captured, and nothing is left to do afterwards; but nobody was handed the frame. -/
theorem lost_to_rival :
    let s := (ofSettings {}).perform restarted
    s.able = [] ∧
      (s.station.registry.session? 1).map (fun s => (s.port.name, s.capture)) =
        some ("Ethernet0", some ⟨2, 1⟩) ∧
      Trace.Always act (Captures 1) s missed ∧
      (s.perform missed).running = true ∧ (s.perform missed).able = [] ∧
      missed.flatMap (Act.injected "Ethernet0") = [greeting] ∧
      s.deliveries 1 missed = [] ∧
      (s.perform missed).station.registry.heard 1 = s.station.registry.heard 1 ∧
      s.station.rivals ⟨2, 1⟩ = [1] :=
  ⟨by decide +kernel, by decide +kernel, by decide +kernel, by decide +kernel,
    by decide +kernel, by decide +kernel, by decide +kernel, by decide +kernel,
    by decide +kernel⟩

end Service
end Lldp
