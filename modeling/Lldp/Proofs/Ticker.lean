/-
# What a ticker does when it is served

A ticker that has something to do does one of eight things (`Ticker.Turn`, `turn_step`): it
begins, or cannot; its tick has come, and it lets it pass, leaves a request, finds no room or
nobody who reads; or its wait for room is over.  Everything else that is said here of a step
follows from that: only a tick changes when the next one is due, and then by a period
(`Turn.nextAt`, `due_add_period_le_nextDue`, `now_add_period_le_nextDue`); a tick leaves at
most one request, at once or when there is room (`Turn.items`).
-/

import Lldp.Proofs.Station.Pacing

namespace Lldp

namespace Ticker

variable {t : Ticker} {box : Triggers} {now stamp due period : Nat} {link : LinkState}
  {done : Ticker × Triggers}

/-- The next tick comes a period after the one before was due, or later. -/
theorem due_add_period_le_nextDue : due + period ≤ nextDue due now period := by
  unfold nextDue
  split_ifs <;> omega

/-- And it comes a period after this one was served, but for the grace. -/
theorem now_add_period_le_nextDue : now + period ≤ nextDue due now period + grace := by
  unfold nextDue
  split_ifs <;> omega

/-- A tick that is served on time leaves the rhythm as it is. -/
theorem nextDue_self : nextDue due due period = due + period :=
  if_neg (Nat.not_lt.2 (Nat.le_add_right _ _))

/-- Whether the time of the next tick has come. -/
def isDue (t : Ticker) (now : Nat) : Bool :=
  match t.phase with
  | .sleeping due _ => due ≤ now
  | _ => false

/-- Whether the ticker waits for room in the mailbox. -/
def isBlocked (t : Ticker) : Bool :=
  match t.phase with
  | .sending _ => true
  | _ => false

/-- The later it is, the later the next tick. -/
theorem nextAt_mono {later : Nat} (hle : now ≤ later) : t.nextAt now ≤ t.nextAt later := by
  unfold nextAt
  split
  · exact Nat.le_refl _
  · exact Nat.le_refl _
  · exact Nat.add_le_add_right hle _
  · exact Nat.add_le_add_right hle _

/-- A tick that is due is not yet to come. -/
theorem nextAt_le_of_isDue (h : t.isDue now = true) : t.nextAt now ≤ now := by
  unfold isDue at h
  unfold nextAt
  split at h
  · next hphase =>
    rw [hphase]
    exact of_decide_eq_true h
  · cases h

/-- A ticker whose tick has come has something to do. -/
theorem isDue_of_isReady (box : Triggers) (h : t.isReady now box = false) :
    t.isDue now = false := by
  unfold isReady at h
  unfold isDue
  cases hphase : t.phase with
  | sleeping due stamp => rwa [hphase] at h
  | starting | sending | finished => rfl

/-- A ticker that goes on, waits for no room and has nothing to do sleeps. -/
theorem sleeps (hready : t.isReady now box = false) (hblocked : t.isBlocked = false)
    (hruns : t.phase ≠ .finished) : ∃ due stamp, t.phase = .sleeping due stamp ∧ now < due := by
  unfold isReady at hready
  unfold isBlocked at hblocked
  cases hphase : t.phase with
  | starting | sending => simp [hphase] at hready hblocked
  | finished => exact absurd hphase hruns
  | sleeping due stamp =>
    rw [hphase] at hready
    exact ⟨due, stamp, rfl, Nat.lt_of_not_le (of_decide_eq_false hready)⟩

/-- A ticker that has ended is never due. -/
theorem running_of_isDue (h : t.isDue now = true) : t.phase ≠ .finished := by
  intro hphase
  simp [isDue, hphase] at h

/-- **What a ticker does that has something to do.** -/
inductive Turn (t : Ticker) (now stamp : Nat) (link : LinkState) (box : Triggers) :
    Ticker × Triggers → Prop
  /-- It reads the clock and lies down until its first tick. -/
  | begins (hphase : t.phase = .starting) (hreach : reachable (now + t.period) = true) :
    Turn t now stamp link box ({ t with phase := .sleeping (now + t.period) stamp }, box)
  /-- Its first tick is beyond what the clock can count to. -/
  | despairs (hphase : t.phase = .starting) (hreach : reachable (now + t.period) = false) :
    Turn t now stamp link box ({ t with phase := .finished }, box)
  /-- A tick while the link is not up. -/
  | skips (due stamp' : Nat) (hphase : t.phase = .sleeping due stamp') (hdue : due ≤ now)
      (hlink : link ≠ .up) :
    Turn t now stamp link box
      ({ t with phase := .sleeping (nextDue due now t.period) stamp }, box)
  /-- A tick when nobody reads the mailbox any more. -/
  | refused (due stamp' : Nat) (hphase : t.phase = .sleeping due stamp') (hdue : due ≤ now)
      (hlink : link = .up) (hclosed : box.closed = true) :
    Turn t now stamp link box ({ t with phase := .finished }, box)
  /-- A tick that leaves a request. -/
  | asks (due stamp' : Nat) (hphase : t.phase = .sleeping due stamp') (hdue : due ≤ now)
      (hlink : link = .up) (hopen : box.closed = false) (hroom : box.hasSpareRoom = true) :
    Turn t now stamp link box
      ({ t with phase := .sleeping (nextDue due now t.period) stamp }, box.push t.ifIndex)
  /-- A tick that finds no room. -/
  | waits (due stamp' : Nat) (hphase : t.phase = .sleeping due stamp') (hdue : due ≤ now)
      (hlink : link = .up) (hopen : box.closed = false) (hroom : box.hasSpareRoom = false) :
    Turn t now stamp link box
      ({ t with phase := .sending (nextDue due now t.period) },
        { box with waiting := box.waiting ++ [(t.ifIndex, t.ifIndex)] })
  /-- Nobody will make room any more. -/
  | leaves (due : Nat) (hphase : t.phase = .sending due) (hclosed : box.closed = true) :
    Turn t now stamp link box ({ t with phase := .finished }, box.settle t.ifIndex)
  /-- Its wait for room is over. -/
  | goesOn (due : Nat) (hphase : t.phase = .sending due) (hopen : box.closed = false) :
    Turn t now stamp link box
      ({ t with phase := .sleeping due stamp }, box.settle t.ifIndex)

/-- **What a ticker does that is able** is one of the eight things. -/
theorem turn_step (stamp : Nat) (link : LinkState) (hready : t.isReady now box = true) :
    Turn t now stamp link box (t.step now stamp link box) := by
  unfold isReady at hready
  cases hphase : t.phase with
  | starting =>
    simp only [step, hphase]
    split_ifs with hreach
    · exact .begins hphase hreach
    · exact .despairs hphase (Bool.eq_false_iff.2 hreach)
  | sleeping due stamp' =>
    rw [hphase] at hready
    have hdue : due ≤ now := of_decide_eq_true hready
    simp only [step, hphase]
    split_ifs with hlink
    · exact .skips due stamp' hphase hdue hlink
    · have hup := not_not.1 hlink
      unfold Mailbox.send
      split_ifs with hclosed hroom
      · exact .refused due stamp' hphase hdue hup hclosed
      · exact .asks due stamp' hphase hdue hup (Bool.eq_false_iff.2 hclosed) hroom
      · exact .waits due stamp' hphase hdue hup (Bool.eq_false_iff.2 hclosed)
          (Bool.eq_false_iff.2 hroom)
  | sending due =>
    simp only [step, hphase]
    split_ifs with hclosed
    · exact .leaves due hphase hclosed
    · exact .goesOn due hphase (Bool.eq_false_iff.2 hclosed)
  | finished =>
    rw [hphase] at hready
    cases hready

namespace Turn

/-- A ticker stays that of its port, and keeps its period. -/
theorem keeps (h : Turn t now stamp link box done) :
    done.1.ifIndex = t.ifIndex ∧ done.1.period = t.period := by
  cases h <;> exact ⟨rfl, rfl⟩

/-- Only a ticker that has not ended does anything. -/
theorem running (h : Turn t now stamp link box done) : t.phase ≠ .finished := by
  intro hphase
  cases h <;> simp_all

/-- A tick is not the last while somebody reads. -/
theorem running_of_isDue (h : Turn t now stamp link box done) (hdue : t.isDue now = true)
    (hopen : box.closed = false) : done.1.phase ≠ .finished := by
  unfold isDue at hdue
  cases h with
  | begins | skips | asks | waits | goesOn => simp
  | despairs hphase => simp [hphase] at hdue
  | refused _ _ _ _ _ hclosed | leaves _ _ hclosed => cases hopen.symm.trans hclosed

/-- **What a turn does to the ticks to come**, unless it is the last: only a tick changes
when the next one is due, and the link has no part in it. -/
theorem nextAt (h : Turn t now stamp link box done) (hruns : done.1.phase ≠ .finished) :
    done.1.nextAt now =
      if t.isDue now then nextDue (t.nextAt now) now t.period else t.nextAt now := by
  unfold isDue Ticker.nextAt
  cases h with
  | begins hphase => simp [hphase]
  | despairs | refused | leaves => exact absurd rfl hruns
  | skips due stamp' hphase hdue | asks due stamp' hphase hdue | waits due stamp' hphase hdue =>
    simp [hphase, hdue]
  | goesOn due hphase => simp [hphase]

/-- **What a turn leaves in the mailbox**: at most one request, of a tick while the link is
up, at once or when the wait for room is over. -/
theorem items (h : Turn t now stamp link box done) :
    ∃ added, done.2.items = box.items ++ added ∧
      added.length + done.1.isBlocked.toNat ≤
        (t.isDue now && link = .up).toNat + t.isBlocked.toNat := by
  have hsettle : ∀ i, ∃ added, (box.settle i).items = box.items ++ added ∧ added.length ≤ 1 := by
    intro i
    unfold Mailbox.settle
    split
    · split_ifs
      · exact ⟨[], (List.append_nil _).symm, Nat.zero_le _⟩
      · exact ⟨[_], rfl, Nat.le_refl _⟩
    · exact ⟨[], (List.append_nil _).symm, Nat.zero_le _⟩
  cases h with
  | begins | despairs | skips | refused => exact ⟨[], (List.append_nil _).symm, Nat.zero_le _⟩
  | asks due stamp' hphase hdue hlink =>
    exact ⟨[t.ifIndex], rfl, by simp [isDue, isBlocked, hphase, hdue, hlink]⟩
  | waits due stamp' hphase hdue hlink =>
    exact ⟨[], (List.append_nil _).symm, by simp [isDue, isBlocked, hphase, hdue, hlink]⟩
  | leaves due hphase | goesOn due hphase =>
    obtain ⟨added, hitems, hone⟩ := hsettle t.ifIndex
    exact ⟨added, hitems, by simpa [isDue, isBlocked, hphase] using hone⟩

/-- **A tick while the link is not up** asks for nothing, and the next tick is due when it
would have been. -/
theorem of_down (h : Turn t now stamp link box done) (hdue : t.isDue now = true)
    (hlink : link ≠ .up) :
    done.2 = box ∧ done.1.phase = .sleeping (nextDue (t.nextAt now) now t.period) stamp := by
  unfold isDue at hdue
  unfold Ticker.nextAt
  cases h with
  | skips due stamp' hphase => exact ⟨rfl, by rw [hphase]⟩
  | refused _ _ _ _ hup | asks _ _ _ _ hup | waits _ _ _ _ hup => exact absurd hup hlink
  | begins hphase | despairs hphase | leaves _ hphase | goesOn _ hphase => simp [hphase] at hdue

/-- **A ticker that need not wait** for room leaves its request with the tick, if the link
is up, and goes on. -/
theorem of_unblocked (h : Turn t now stamp link box done) (hopen : box.closed = false)
    (hbefore : t.isBlocked = false) (hafter : done.1.isBlocked = false) :
    done.2 = (if t.isDue now && link = .up then box.push t.ifIndex else box) ∧
      (done.1.phase = .finished → reachable (t.nextAt now) = false) := by
  unfold isBlocked at hbefore hafter
  unfold isDue Ticker.nextAt
  cases h with
  | begins hphase => simp [hphase]
  | despairs hphase hreach => simpa [hphase] using hreach
  | skips due stamp' hphase hdue hlink => simp [hphase, hlink]
  | refused _ _ _ _ _ hclosed => cases hopen.symm.trans hclosed
  | asks due stamp' hphase hdue hlink => simp [hphase, hdue, hlink]
  | waits => cases hafter
  | leaves due hphase | goesOn due hphase =>
    rw [hphase] at hbefore
    cases hbefore

/-- A ticker that waited for room does so no more. -/
theorem of_blocked (h : Turn t now stamp link box done) (hbefore : t.isBlocked = true) :
    done.1.isBlocked = false := by
  unfold isBlocked at hbefore
  cases h with
  | begins hphase | despairs hphase | skips _ _ hphase | refused _ _ hphase | asks _ _ hphase
  | waits _ _ hphase => simp [hphase] at hbefore
  | leaves | goesOn => rfl

/-- **After a turn the ticker has nothing to do**, but that the end of its wait for room may
have left it late. -/
theorem rests (h : Turn t now stamp link box done) (hperiod : grace < t.period)
    (hheld : box.held t.ifIndex = t.holds) (hbefore : t.isBlocked = false) :
    done.1.isReady now done.2 = false := by
  have hlater : ∀ due, now < nextDue due now t.period := fun due => by
    have hle : now + t.period ≤ nextDue due now t.period + grace := now_add_period_le_nextDue
    omega
  unfold isBlocked at hbefore
  unfold isReady
  cases h with
  | begins =>
    have hpos : 0 < t.period := Nat.zero_lt_of_lt hperiod
    exact decide_eq_false (Nat.not_le.2 (Nat.lt_add_of_pos_right hpos))
  | despairs | refused => rfl
  | skips | asks => simpa using hlater _
  | waits due stamp' hphase _ _ hopen hroom =>
    -- Those who came before are entitled to all the room there is.
    have hfull : box.room ≤ box.waiting.length := by
      simpa [Mailbox.hasSpareRoom] using hroom
    have hnone : box.held t.ifIndex = [] := by rw [hheld, holds, hphase]
    have hothers : ∀ w ∈ box.waiting, ¬w.1 = t.ifIndex := by
      simpa [Mailbox.held, List.filter_eq_nil_iff] using hnone
    have hroom' : { box with waiting := box.waiting ++ [(t.ifIndex, t.ifIndex)] }.room =
      box.room := rfl
    dsimp only
    rw [Mailbox.canSettle, hroom', hopen, Bool.false_or, List.take_append_of_le_length hfull]
    simpa using fun a b hab => hothers (a, b) (List.mem_of_mem_take hab)
  | leaves due hphase | goesOn due hphase => exact absurd hbefore (by simp [hphase])

end Turn
end Ticker

end Lldp
