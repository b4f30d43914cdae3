/-
# What is wrong with a configuration

A configuration is looked at three times before a station runs: it is validated, its settings
are made, and its ports are listed.  The registry then looks at the ports once more.  Each of
these stops at the first thing that it cannot accept, and none knows of the others.

`Config.faults` lists everything that is wrong, each fault in the place where a reader of the
whole configuration would come upon it, and validation names the first of them
(`Config.validate_eq`).  So there is nothing to complain of exactly where nothing is wrong,
and this is all that the others ask for: the settings can be made, every address can be read
(`Config.planned`), and the registry accepts one port after another since no index comes twice
(`Registry.addAll_of_nodup`).
-/

import Lldp.Config
import Lldp.Proofs.Mac
import Lldp.Proofs.Registry.Lookup

namespace Lldp

namespace PortConfig

/-- What is wrong with a port that comes after those with the indexes `seen`. -/
def faults (p : PortConfig) (seen : List IfIndex) : List Error :=
  (if p.name = "" then [.unnamedPort p.ifIndex] else []) ++
  (if p.ifIndex ∈ seen then [.duplicatePort p.ifIndex p.name] else []) ++
  (if Mac.ofText? p.mac = none then [.macText p.mac] else [])

variable {p : PortConfig} {port : Port} {seen : List IfIndex}

/-- **A port can be registered** if its address can be read, and it is the port that is
configured. -/
theorem port_eq_ok_iff : p.port = .ok port ↔
    port.ifIndex = p.ifIndex ∧ port.number = p.number ∧ port.name = p.name ∧
      Mac.parse p.mac = .ok port.mac := by
  unfold PortConfig.port
  cases hmac : Mac.parse p.mac with
  | error e => simp
  | ok mac =>
    obtain ⟨ifIndex, number, name, mac'⟩ := port
    simp only [Except.ok.injEq, Port.mk.injEq]
    exact ⟨fun ⟨hindex, hnumber, hname, hmac⟩ => ⟨hindex.symm, hnumber.symm, hname.symm, hmac⟩,
      fun ⟨hindex, hnumber, hname, hmac⟩ => ⟨hindex.symm, hnumber.symm, hname.symm, hmac⟩⟩

theorem faults_eq_nil_iff : p.faults seen = [] ↔
    p.name ≠ "" ∧ p.ifIndex ∉ seen ∧ ∃ mac, Mac.parse p.mac = .ok mac := by
  have hmac : Mac.ofText? p.mac ≠ none ↔ ∃ mac, Mac.parse p.mac = .ok mac := by
    unfold Mac.parse
    cases Mac.ofText? p.mac <;> simp
  rw [faults, ← hmac]
  simp only [List.append_eq_nil_iff, ite_eq_right_iff, List.cons_ne_nil, imp_false, and_assoc,
    ne_eq]

end PortConfig

namespace Config

variable {c : Config} {p : PortConfig} {ports : List PortConfig} {seen before : List IfIndex}

/-! ### Faults in their order -/

/-- What is wrong with ports that come after those with the indexes `before`.  Each is held
against those before it. -/
def portFaults (before : List IfIndex) (ports : List PortConfig) : List Error :=
  ports.zipIdx.flatMap fun (p, k) => p.faults (before ++ (ports.take k).map (·.ifIndex))

/-- **Everything that is wrong with a configuration**: with the station as a whole, with the
captures, and with one port after another. -/
def faults (c : Config) : List Error :=
  (if c.global.interval = 0 then [.zeroInterval] else []) ++
  (if c.global.multiplier = 0 then [.zeroMultiplier] else []) ++
  (if c.global.capacity = 0 then [.zeroCapacity] else []) ++
  (if c.capture.snaplen ≤ 0 then [.snaplen] else []) ++
  portFaults [] c.ports

/-- That a configuration makes sense. -/
structure Sound (c : Config) : Prop where
  interval : c.global.interval ≠ 0
  multiplier : c.global.multiplier ≠ 0
  capacity : c.global.capacity ≠ 0
  snaplen : 0 < c.capture.snaplen
  named : ∀ p ∈ c.ports, p.name ≠ ""
  distinct : (c.ports.map (·.ifIndex)).Nodup
  readable : ∀ p ∈ c.ports, ∃ mac, Mac.parse p.mac = .ok mac

theorem portFaults_cons : portFaults before (p :: ports) =
    p.faults before ++ portFaults (before ++ [p.ifIndex]) ports := by
  simp only [portFaults, List.zipIdx_cons', List.flatMap_cons, List.flatMap_map, List.take_zero,
    List.map_nil, List.append_nil, Prod.map_fst, Prod.map_snd, id_eq, List.take_succ_cons,
    List.map_cons, List.append_assoc, List.singleton_append]

/-- **Nothing is wrong with ports** that have names, indexes of their own and addresses. -/
theorem portFaults_eq_nil_iff : portFaults before ports = [] ↔
    (∀ p ∈ ports, p.name ≠ "") ∧
      ((ports.map (·.ifIndex)).Nodup ∧ ∀ p ∈ ports, p.ifIndex ∉ before) ∧
      ∀ p ∈ ports, ∃ mac, Mac.parse p.mac = .ok mac := by
  induction ports generalizing before with
  | nil => simp [portFaults]
  | cons p rest ih =>
    rw [portFaults_cons, List.append_eq_nil_iff, PortConfig.faults_eq_nil_iff, ih]
    simp only [List.forall_mem_cons, List.map_cons, List.nodup_cons, List.mem_map, not_exists,
      not_and, List.mem_append, List.mem_singleton, not_or, forall_and]
    tauto

/-- **Nothing is wrong with a configuration that makes sense**, and only with such. -/
theorem faults_eq_nil_iff : c.faults = [] ↔ c.Sound := by
  simp only [faults, List.append_eq_nil_iff, ite_eq_right_iff, List.cons_ne_nil, imp_false,
    portFaults_eq_nil_iff, not_le]
  constructor
  · rintro ⟨⟨⟨⟨hinterval, hmultiplier⟩, hcapacity⟩, hsnaplen⟩, hnamed, ⟨hdistinct, -⟩, hreadable⟩
    exact ⟨hinterval, hmultiplier, hcapacity, hsnaplen, hnamed, hdistinct, hreadable⟩
  · rintro ⟨hinterval, hmultiplier, hcapacity, hsnaplen, hnamed, hdistinct, hreadable⟩
    exact ⟨⟨⟨⟨hinterval, hmultiplier⟩, hcapacity⟩, hsnaplen⟩, hnamed,
      ⟨hdistinct, fun _ _ => List.not_mem_nil⟩, hreadable⟩

/-! ### The first fault -/

/-- The verdict on what is wrong: the first fault, if there is one. -/
def verdict : List Error → Except Error Unit
  | [] => .ok ()
  | e :: _ => .error e

theorem verdict_eq_ok_iff {es : List Error} : verdict es = .ok () ↔ es = [] := by
  cases es <;> simp [verdict]

theorem verdict_eq_error_iff {es : List Error} {e : Error} :
    verdict es = .error e ↔ es.head? = some e := by
  cases es <;> simp [verdict]

/-- A fault that is there counts before those after it. -/
theorem verdict_ite_append {q : Prop} [Decidable q] {e : Error} {es : List Error} :
    verdict ((if q then [e] else []) ++ es) = if q then .error e else verdict es := by
  split_ifs <;> rfl

/-- **Ports are judged by their first fault.** -/
theorem validatePorts_eq (h : ∀ i, i ∈ seen ↔ i ∈ before) :
    validatePorts seen ports = verdict (portFaults before ports) := by
  induction ports generalizing seen before with
  | nil => rfl
  | cons p rest ih =>
    have hrest : ∀ i, i ∈ p.ifIndex :: seen ↔ i ∈ before ++ [p.ifIndex] := by
      intro i
      rw [List.mem_cons, List.mem_append, List.mem_singleton, h, or_comm]
    rw [portFaults_cons, PortConfig.faults, List.append_assoc, List.append_assoc,
      verdict_ite_append, verdict_ite_append, verdict_ite_append, ← ih hrest, validatePorts]
    simp only [String.isEmpty_iff, h, Mac.parse]
    cases Mac.ofText? p.mac <;> simp

/-- **Validation names the first fault**, if there is one. -/
theorem validate_eq : c.validate = verdict c.faults := by
  rw [faults]
  simp only [List.append_assoc, verdict_ite_append]
  rw [validate, timing, Timing.ofNumbers, validatePorts_eq fun _ => Iff.rfl]
  split_ifs <;> rfl

/-! ### What becomes of ports -/

/-- That an entry of the plan is what is configured of a port. -/
def Plans (c : PortConfig) (entry : Port × Bool) : Prop := c.port = .ok entry.1 ∧ c.enabled = entry.2

theorem Plans.data {c : PortConfig} {entry : Port × Bool} (h : Plans c entry) :
    entry.1.ifIndex = c.ifIndex ∧ entry.1.name = c.name := by
  obtain ⟨hindex, -, hname, -⟩ := PortConfig.port_eq_ok_iff.1 h.1
  exact ⟨hindex, hname⟩

/-- **Where addresses can be read**, all ports are listed. -/
theorem planned {configured : List PortConfig}
    (h : ∀ c ∈ configured, ∃ mac, Mac.parse c.mac = .ok mac) :
    ∃ ports, portList.go configured = .ok ports ∧ List.Forall₂ Plans configured ports := by
  induction configured with
  | nil => exact ⟨[], rfl, .nil⟩
  | cons c rest ih =>
    obtain ⟨⟨mac, hmac⟩, hreadable⟩ := List.forall_mem_cons.1 h
    obtain ⟨ports, hports, hplans⟩ := ih hreadable
    have hport : c.port = .ok { ifIndex := c.ifIndex, number := c.number, name := c.name, mac } :=
      PortConfig.port_eq_ok_iff.2 ⟨rfl, rfl, rfl, hmac⟩
    exact ⟨_, by rw [portList.go, hport, hports], .cons ⟨hport, rfl⟩ hplans⟩

/-- **Where ports make sense**, their addresses can be read and their indexes are distinct. -/
theorem planned_of_validatePorts {seen : List IfIndex} {configured : List PortConfig}
    (h : validatePorts seen configured = .ok ()) :
    ∃ ports, portList.go configured = .ok ports ∧ List.Forall₂ Plans configured ports ∧
      (configured.map (·.ifIndex)).Nodup ∧ ∀ c ∈ configured, c.ifIndex ∉ seen := by
  rw [validatePorts_eq fun _ => Iff.rfl, verdict_eq_ok_iff, portFaults_eq_nil_iff] at h
  obtain ⟨-, hdistinct, hreadable⟩ := h
  obtain ⟨ports, hports, hplans⟩ := planned hreadable
  exact ⟨ports, hports, hplans, hdistinct⟩

/-- What the plan says of ports. -/
theorem map_planned {α : Type} {f : PortConfig → α} {g : Port × Bool → α}
    {configured : List PortConfig} {ports : List (Port × Bool)}
    (h : List.Forall₂ Plans configured ports) (hfg : ∀ c e, Plans c e → f c = g e) :
    configured.map f = ports.map g := by
  induction h with
  | nil => rfl
  | cons hplans _ ih => rw [List.map_cons, List.map_cons, ih, hfg _ _ hplans]

/-- What the plan says of the ports that are to be heard of. -/
theorem map_enabled {α : Type} {f : PortConfig → α} {g : Port → α} {configured : List PortConfig}
    {ports : List (Port × Bool)} (h : List.Forall₂ Plans configured ports)
    (hfg : ∀ c e, Plans c e → f c = g e.1) :
    (configured.filter (·.enabled)).map f = (ports.filter (·.2)).map fun e => g e.1 := by
  induction h with
  | nil => rfl
  | cons hplans _ ih =>
    rw [List.filter_cons, List.filter_cons, hplans.2]
    split_ifs
    · rw [List.map_cons, List.map_cons, ih, hfg _ _ hplans]
    · exact ih

end Config

namespace Registry

/-- Registers ports one after another, as far as none is refused. -/
def addAll (r : Registry) : List Port → Except Error Unit × Registry
  | [] => (.ok (), r)
  | port :: rest =>
    match r.add port with
    | (.error e, r) => (.error e, r)
    | (.ok (), r) => r.addAll rest

/-- **Ports with indexes of their own are all registered**, in their order and after those that
are there. -/
theorem addAll_of_nodup {r : Registry} {ports : List Port}
    (h : (r.indexes ++ ports.map (·.ifIndex)).Nodup) :
    r.addAll ports = (.ok (), { r with
      sessions := r.sessions ++ ports.map fun port => .ofPort port r.settings.timing }) := by
  induction ports generalizing r with
  | nil => rw [addAll, List.map_nil, List.append_nil]
  | cons port rest ih =>
    have hnone : r.session? port.ifIndex = none := by
      rw [session?_eq_none_iff]
      intro hmem
      exact List.disjoint_of_nodup_append h hmem List.mem_cons_self
    have hrest : ((r.add port).2.indexes ++ rest.map (·.ifIndex)).Nodup := by
      rwa [indexes_add hnone, List.append_assoc, List.singleton_append]
    have hadd := ih hrest
    rw [add, hnone] at hadd
    rw [addAll, add, hnone]
    dsimp only at hadd ⊢
    rw [hadd, List.append_assoc, List.singleton_append, List.map_cons]

end Registry

namespace Config

variable {c : Config}

/-- The settings can be made of a configuration that makes sense. -/
theorem Sound.settings_eq (h : c.Sound) : ∃ timing : Timing,
    timing.interval = c.global.interval ∧ timing.multiplier = c.global.multiplier ∧
      c.settings = .ok
        { enabled := c.global.enabled
          timing
          capture := c.capture
          capacity := c.global.capacity } := by
  refine ⟨⟨c.global.interval, c.global.multiplier, Nat.pos_of_ne_zero h.interval,
    Nat.pos_of_ne_zero h.multiplier⟩, rfl, rfl, ?_⟩
  rw [settings, timing, Timing.ofNumbers, dif_neg h.interval, dif_neg h.multiplier]

/-- **Validation is exact, and enough.**  It accepts the configurations that make sense and no
others, and else names the first of all faults.  Of a configuration that is accepted, the
settings are made as configured, the ports are listed in their order and as configured, and a
registry without ports registers them all. -/
theorem validates_exactly :
    (∀ c : Config, c.validate = .ok () ↔ c.Sound) ∧
    (∀ (c : Config) (e : Error), c.validate = .error e ↔ c.faults.head? = some e) ∧
    ∀ c : Config, c.validate = .ok () → ∃ (timing : Timing) (ports : List (Port × Bool)),
      timing.interval = c.global.interval ∧ timing.multiplier = c.global.multiplier ∧
      c.settings = .ok
        { enabled := c.global.enabled
          timing
          capture := c.capture
          capacity := c.global.capacity } ∧
      c.portList = .ok ports ∧
      List.Forall₂ (fun p entry =>
        entry.1.ifIndex = p.ifIndex ∧ entry.1.number = p.number ∧ entry.1.name = p.name ∧
          Mac.parse p.mac = .ok entry.1.mac ∧ entry.2 = p.enabled) c.ports ports ∧
      ∀ r : Registry, r.sessions = [] →
        r.addAll (ports.map (·.1)) = (.ok (), { r with
          sessions := ports.map fun entry => .ofPort entry.1 r.settings.timing }) := by
  have hsound : ∀ c : Config, c.validate = .ok () ↔ c.Sound := fun c => by
    rw [validate_eq, verdict_eq_ok_iff, faults_eq_nil_iff]
  refine ⟨hsound, fun c e => by rw [validate_eq, verdict_eq_error_iff], fun c hvalid => ?_⟩
  have h := (hsound c).1 hvalid
  obtain ⟨timing, hinterval, hmultiplier, hsettings⟩ := h.settings_eq
  obtain ⟨ports, hports, hplans⟩ := planned h.readable
  refine ⟨timing, ports, hinterval, hmultiplier, hsettings, hports, ?_, fun r hempty => ?_⟩
  · refine hplans.imp fun p entry hp => ?_
    obtain ⟨hindex, hnumber, hname, hmac⟩ := PortConfig.port_eq_ok_iff.1 hp.1
    exact ⟨hindex, hnumber, hname, hmac, hp.2.symm⟩
  · have hindexes : c.ports.map (·.ifIndex) = ports.map (·.1.ifIndex) :=
      map_planned hplans fun _ _ hp => hp.data.1.symm
    have hnodup : (r.indexes ++ (ports.map (·.1)).map (·.ifIndex)).Nodup := by
      rw [Registry.indexes, hempty, List.map_nil, List.nil_append, List.map_map]
      exact hindexes ▸ h.distinct
    rw [Registry.addAll_of_nodup hnodup, hempty, List.nil_append, List.map_map]
    rfl

/-- Two ports that make sense. -/
def pair : Config where
  ports :=
    [{ ifIndex := 7, name := "a", mac := "02-00-00-00-00-0A" },
     { ifIndex := 3, name := "b", mac := "02:0:0:0:0:b", enabled := false }]

/-- Two more: one with the index of the first and without an address, and one without a name. -/
def crowd : Config where
  ports := pair.ports ++
    [{ ifIndex := 7, name := "c", mac := "02:0:0:0:0" },
     { ifIndex := 8, name := "", mac := "02:0:0:0:0:d" }]

theorem validates_exactly_pair :
    pair.validate = .ok () ∧ pair.Sound ∧
      (∃ ports, pair.portList = .ok ports ∧ ports.map (·.1.ifIndex) = [7, 3] ∧
        ∀ r : Registry, r.sessions = [] → (r.addAll (ports.map (·.1))).1 = .ok ()) ∧
      crowd.faults = [.duplicatePort 7 "c", .macText "02:0:0:0:0", .unnamedPort 8] ∧
      crowd.validate = .error (.duplicatePort 7 "c") := by
  obtain ⟨hsound, herror, haccepted⟩ := validates_exactly
  have hvalid : pair.validate = .ok () := by rfl
  have hfaults : crowd.faults =
      [.duplicatePort 7 "c", .macText "02:0:0:0:0", .unnamedPort 8] := by rfl
  obtain ⟨timing, ports, -, -, -, hports, -, hadded⟩ := haccepted pair hvalid
  refine ⟨hvalid, (hsound pair).1 hvalid, ⟨ports, hports, ?_, fun r hempty => ?_⟩, hfaults,
    (herror crowd _).2 (by rw [hfaults]; rfl)⟩
  · obtain rfl := Except.ok.inj hports
    rfl
  · rw [hadded r hempty]

end Config
end Lldp
