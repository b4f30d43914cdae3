/-
# What a port says of itself

The packet that advertises a port can be built exactly if the name of its
interface is not empty and fits a TLV beside the subtype (`exists_packet_iff`).
Address and timing have no say in it, so a port that cannot be advertised under
one timing cannot be under any other.

`Transmitter.fst_current` is what keeping a packet comes to: a transmitter that
keeps nothing but the packet it would build gives that packet out.
-/

import Lldp.Proofs.Frame
import Lldp.Transmitter

namespace Lldp

namespace Transmitter

variable {timing : Timing} {source : Mac} {name : String} {bytes : Octets} {t : Transmitter}

/-- **A port can be advertised exactly if its name is neither empty nor longer
than 510 octets.** -/
theorem exists_packet_iff : (∃ bytes, packet timing source name = .ok bytes) ↔
    (Utf8.encode name).length ≠ 0 ∧ (Utf8.encode name).length ≤ 510 := by
  have hencode : (∃ bytes, packet timing source name = .ok bytes) ↔
      ∃ bytes, (frame timing source name).encode = .ok bytes := by
    unfold packet
    cases (frame timing source name).encode with
    | error e => simp [Except.map]
    | ok bytes => simp [Except.map]
  have httl : timing.ttl ≤ Frame.maxTtl := Nat.min_le_right _ _
  rw [hencode, Frame.exists_encode_iff, Frame.fault?_eq_none_iff]
  constructor
  · rintro ⟨⟨-, hname, -⟩, -, hshort, -⟩
    exact ⟨fun hnil => hname (List.eq_nil_of_length_eq_zero hnil), hshort⟩
  · rintro ⟨hname, hshort⟩
    refine ⟨⟨List.cons_ne_nil _ _, fun hnil => hname (congrArg List.length hnil), rfl, httl⟩,
      Nat.le_of_ble_eq_true rfl, hshort, ?_⟩
    intro t ht
    cases ht

/-- A name that cannot be advertised under one timing cannot be under another. -/
theorem packet_retimed {timing' : Timing} (h : packet timing source name = .ok bytes) :
    ∃ bytes', packet timing' source name = .ok bytes' :=
  exists_packet_iff.2 (exists_packet_iff.1 ⟨bytes, h⟩)

/-- **A packet that was built** carries the frame of the port, addressed to the
nearest bridge. -/
theorem of_packet (h : packet timing source name = .ok bytes) :
    ∃ frame, (Transmitter.frame timing source name).encode = .ok frame ∧
      bytes = Ethernet.build source frame := by
  unfold packet at h
  cases hf : (Transmitter.frame timing source name).encode with
  | error e =>
    rw [hf] at h
    cases h
  | ok frame =>
    rw [hf] at h
    exact ⟨frame, rfl, (Except.ok.inj h).symm⟩

/-- A packet that was built is not empty. -/
theorem packet_ne_nil (h : packet timing source name = .ok bytes) : bytes ≠ [] := by
  obtain ⟨frame, -, rfl⟩ := of_packet h
  simp [Ethernet.build, Mac.toOctets]

/-- **What is given out is the kept packet**, or else a fresh one that is kept,
or nothing. -/
theorem current_cases (t : Transmitter) (source : Mac) (name : String) :
    (∃ bytes, t.cached = some bytes ∧ t.current source name = (bytes, t)) ∨
      (t.cached = none ∧ ∃ bytes, packet t.timing source name = .ok bytes ∧
        t.current source name = (bytes, { t with cached := some bytes, builds := t.builds + 1 })) ∨
      (t.cached = none ∧ (∃ e, packet t.timing source name = .error e) ∧
        t.current source name = ([], t)) := by
  obtain ⟨timing, cached, builds, ticker⟩ := t
  unfold current build
  cases cached with
  | some bytes => exact Or.inl ⟨bytes, rfl, rfl⟩
  | none =>
    cases hp : packet timing source name with
    | ok bytes => exact Or.inr (Or.inl ⟨rfl, bytes, rfl, by simp⟩)
    | error e => exact Or.inr (Or.inr ⟨rfl, ⟨e, rfl⟩, by simp⟩)

/-- What is given out is the packet, or nothing if it cannot be built, provided
that no other packet is kept. -/
theorem fst_current
    (h : ∀ bytes, t.cached = some bytes → packet t.timing source name = .ok bytes) :
    (t.current source name).1 =
      match packet t.timing source name with
      | .ok bytes => bytes
      | .error _ => [] := by
  rcases current_cases t source name with
    ⟨bytes, hc, heq⟩ | ⟨-, bytes, hp, heq⟩ | ⟨-, ⟨e, hp⟩, heq⟩
  · rw [heq, h bytes hc]
  · rw [heq, hp]
  · rw [heq, hp]

/-- A transmitter that has nothing to give out stays as it was. -/
theorem snd_current_of_nil (h : (t.current source name).1 = []) :
    (t.current source name).2 = t := by
  rcases current_cases t source name with
    ⟨bytes, -, heq⟩ | ⟨-, bytes, hp, heq⟩ | ⟨-, -, heq⟩
  · rw [heq]
  · rw [heq] at h
    exact absurd h (packet_ne_nil hp)
  · rw [heq]

/-- Giving a packet out takes at most one build, and none while one is kept. -/
theorem snd_current (t : Transmitter) (source : Mac) (name : String) :
    (t.current source name).2.timing = t.timing ∧
      (t.current source name).2.builds ≤ t.builds + if t.cached = none then 1 else 0 := by
  rcases current_cases t source name with
    ⟨bytes, hc, heq⟩ | ⟨hc, bytes, -, heq⟩ | ⟨hc, -, heq⟩
  · rw [heq]
    exact ⟨rfl, Nat.le_add_right _ _⟩
  · rw [heq, if_pos hc]
    exact ⟨rfl, Nat.le_refl _⟩
  · rw [heq]
    exact ⟨rfl, Nat.le_add_right _ _⟩

end Transmitter
end Lldp
