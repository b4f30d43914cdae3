/-
# What is counted on a port

A port counts what happens on it while it is captured: a packet is handed over, which it
accepts or refuses, or a request to transmit is met, which puts a frame on a link or does
not.  And it counts the neighbours that an alarm made it forget, captured or not.  Each of
these is an entry in its books (`Entry`), and its counters are what the entries add up to
(`Counters.noting`).

Three operations make entries, each for the one port it is about (`books_handleInbound`,
`books_handleTransmit`, `books_handleExpiry`).  To start a port, whether or not
its interface can be opened, to stop it, to report its link, to change settings and to shut
everything down makes none (`tally?_follow`, `tally?_apply`, `tally?_shutdown`): the counters
of a port and its neighbour stay.  A port that is registered has counted nothing.

A neighbour is forgotten once for every time that one was accepted, or less often
(`Session.Books.held`).
-/

import Lldp.Proofs.Registry.Gating
import Lldp.Proofs.Station.Sending

namespace Lldp

/-- Whether a packet tells of a neighbour. -/
def Inbound.isAcceptable (p : Inbound) : Bool :=
  match Neighbor.ofPacket p.bytes with
  | .ok _ => true
  | .error _ => false

/-- What happens on a port that is counted. -/
inductive Entry where
  /-- A packet is handed over for it while it is captured. -/
  | packet (packet : Inbound)
  /-- A request to transmit is met while it is captured, and puts a frame on a link, or
  none. -/
  | attempt (ifIndex : IfIndex) (written : Option (Nat × Octets))
  /-- An alarm makes it forget its neighbour. -/
  | ageout (ifIndex : IfIndex) (neighbor : Neighbor)
deriving DecidableEq, Repr

namespace Entry

/-- The port on which it happens. -/
def ifIndex : Entry → IfIndex
  | packet p => p.ifIndex
  | attempt i _ => i
  | ageout i _ => i

def isPacket : Entry → Bool
  | packet _ => true
  | _ => false

def isAccepted : Entry → Bool
  | packet p => p.isAcceptable
  | _ => false

def isRefused : Entry → Bool
  | packet p => !p.isAcceptable
  | _ => false

def isAttempt : Entry → Bool
  | attempt .. => true
  | _ => false

/-- The frame that is written, with the position of its link. -/
def written? : Entry → Option (Nat × Octets)
  | attempt _ written => written
  | _ => none

/-- The frame that is written on a link. -/
def frameOn (link : Nat) (e : Entry) : Option Octets :=
  e.written?.bind fun w => if w.1 = link then some w.2 else none

def isFailure : Entry → Bool
  | attempt _ written => written.isNone
  | _ => false

def isAgeout : Entry → Bool
  | ageout .. => true
  | _ => false

variable (es : List Entry)

/-- A packet is accepted or refused. -/
theorem countP_isPacket : es.countP isPacket = es.countP isAccepted + es.countP isRefused := by
  induction es with
  | nil => rfl
  | cons e es ih =>
    simp only [List.countP_cons, ih]
    rcases e with p | ⟨i, w⟩ | ⟨i, n⟩
    · cases hp : p.isAcceptable <;> simp [isPacket, isAccepted, isRefused, hp] <;> omega
    · rfl
    · rfl

/-- An attempt writes a frame or fails. -/
theorem countP_isAttempt :
    es.countP isAttempt = (es.filterMap written?).length + es.countP isFailure := by
  induction es with
  | nil => rfl
  | cons e es ih =>
    rw [List.filterMap_cons, List.countP_cons, List.countP_cons, ih]
    rcases e with p | ⟨i, _ | w⟩ | ⟨i, n⟩
    · rfl
    · rfl
    · simp [isAttempt, isFailure, written?]
      omega
    · rfl

end Entry

/-- The counters of a port after some entries. -/
def Counters.noting (c : Counters) (es : List Entry) : Counters where
  received := c.received + es.countP Entry.isAccepted
  discarded := c.discarded + es.countP Entry.isRefused
  sent := c.sent + (es.filterMap Entry.written?).length
  sendFailures := c.sendFailures + es.countP Entry.isFailure
  ageouts := c.ageouts + es.countP Entry.isAgeout

/-- What is counted of early and late entries is counted of them together. -/
theorem Counters.noting_append (c : Counters) (es es' : List Entry) :
    c.noting (es ++ es') = (c.noting es).noting es' := by
  simp only [noting, List.countP_append, List.filterMap_append, List.length_append, Nat.add_assoc]

/-- **What some entries add up to.** -/
theorem Counters.noting_zero {c : Counters} {es : List Entry} (h : c = ({} : Counters).noting es) :
    c.received + c.discarded = es.countP Entry.isPacket ∧
      c.received = es.countP Entry.isAccepted ∧
      c.sent + c.sendFailures = es.countP Entry.isAttempt ∧
      c.sent = (es.filterMap Entry.written?).length ∧
      c.ageouts = es.countP Entry.isAgeout := by
  subst h
  simp only [noting, Nat.zero_add, Entry.countP_isPacket, Entry.countP_isAttempt, and_self]

/-- A packet counts as received or as discarded. -/
theorem Counters.noting_packet (c : Counters) (p : Inbound) :
    c.noting [.packet p] =
      if p.isAcceptable then { c with received := c.received + 1 }
      else { c with discarded := c.discarded + 1 } := by
  unfold noting
  cases hp : p.isAcceptable <;>
    simp [Entry.isAccepted, Entry.isRefused, Entry.written?, Entry.isFailure, Entry.isAgeout, hp]

/-- An attempt that writes nothing counts as a failure. -/
theorem Counters.noting_attempt_none (c : Counters) (i : IfIndex) :
    c.noting [.attempt i none] = { c with sendFailures := c.sendFailures + 1 } := rfl

/-- An attempt that writes a frame counts as sent. -/
theorem Counters.noting_attempt_some (c : Counters) (i : IfIndex) (w : Nat × Octets) :
    c.noting [.attempt i (some w)] = { c with sent := c.sent + 1 } := rfl

namespace Session

variable {s s' s'' : Session} {es es' : List Entry}

/-- How many neighbours a port remembers. -/
def held (s : Session) : Nat := if s.receiver.neighbor.isSome then 1 else 0

/-- **What some entries make of a port**: its counters have them added, and it has forgotten
no more neighbours than it remembered and has accepted. -/
structure Books (s s' : Session) (es : List Entry) : Prop where
  counters : s'.counters = s.counters.noting es
  held : s'.held + es.countP Entry.isAgeout ≤ s.held + es.countP Entry.isAccepted

/-- The books are kept on. -/
theorem Books.trans (h : s.Books s' es) (h' : s'.Books s'' es') : s.Books s'' (es ++ es') where
  counters := by rw [h'.counters, h.counters, Counters.noting_append]
  held := by
    have hfirst := h.held
    have hthen := h'.held
    rw [List.countP_append, List.countP_append]
    omega

/-- Nothing is counted, and the neighbour stays. -/
theorem Books.of_eq (hc : s'.counters = s.counters)
    (hn : s'.receiver.neighbor = s.receiver.neighbor) : s.Books s' [] where
  counters := hc
  held := Nat.le_of_eq (by rw [Session.held, hn]; rfl)

end Session

namespace Registry

variable {r r' r'' : Registry} {i j : IfIndex} {s : Session} {now : Nat} {p : Inbound}
  {es es' : List Entry} {link : Nat}

/-! ### The books of a port -/

/-- **What some entries make of a port that is registered**, and that it is registered before
and afterwards or at neither time.  Entries for other ports are not for it. -/
def Books (r r' : Registry) (i : IfIndex) (es : List Entry) : Prop :=
  Option.Rel (fun s s' => s.Books s' (es.filter (·.ifIndex = i))) (r.session? i) (r'.session? i)

namespace Books

/-- To make entries registers no port and forgets none. -/
theorem isRegistered (h : Books r r' i es) : r'.isRegistered i = r.isRegistered i := by
  unfold Books at h
  unfold Registry.isRegistered
  generalize r.session? i = o at h
  generalize r'.session? i = o' at h
  cases h with
  | none => rfl
  | some h => rfl

/-- A registered port has the entries that are about it, and no others, in its books. -/
theorem exists_session (h : Books r r' i es) (hs : r.session? i = some s) :
    ∃ s', r'.session? i = some s' ∧ s.Books s' (es.filter (·.ifIndex = i)) := by
  rw [Books, hs] at h
  generalize r'.session? i = o' at h
  cases h with
  | some h => exact ⟨_, rfl, h⟩

/-- Where nothing happens, nothing is counted. -/
theorem refl (r : Registry) (i : IfIndex) : Books r r i [] := by
  unfold Books
  cases r.session? i with
  | none => exact .none
  | some s => exact .some (.of_eq rfl rfl)

/-- **Entries for one port.** -/
theorem of_ite {change : Session → Session}
    (hs : r'.session? i = if i = j then (r.session? i).map change else r.session? i)
    (hes : ∀ e ∈ es, e.ifIndex = j) (hchange : ∀ s, r.session? j = some s → s.Books (change s) es) :
    Books r r' i es := by
  unfold Books
  rw [hs]
  split_ifs with hi
  · subst hi
    have hown : es.filter (·.ifIndex = i) = es := List.filter_eq_self.2 fun e he => by
      simpa using hes e he
    rw [hown]
    cases hsession : r.session? i with
    | none => exact .none
    | some s => exact .some (hchange s hsession)
  · have hothers : es.filter (·.ifIndex = i) = [] := List.filter_eq_nil_iff.2 fun e he => by
      have hj := hes e he
      simpa [hj] using Ne.symm hi
    rw [hothers]
    exact refl r i

end Books

/-! ### What is not counted -/

/-- What a port has counted, and its neighbour. -/
def tally? (r : Registry) (i : IfIndex) : Option (Counters × Option Neighbor) :=
  (r.session? i).map fun s => (s.counters, s.receiver.neighbor)

/-- Where counters and neighbour are the same, no entry was made. -/
theorem Books.of_tally (h : r'.tally? i = r.tally? i) : Books r r' i [] := by
  unfold tally? at h
  unfold Books
  cases hs : r.session? i with
  | none =>
    rw [hs] at h
    rw [Option.map_eq_none_iff.1 h]
    exact .none
  | some s =>
    rw [hs] at h
    obtain ⟨s', hs', heq⟩ := Option.map_eq_some_iff.1 h
    obtain ⟨hcounters, hneighbor⟩ := Prod.mk.inj heq
    rw [hs']
    exact .some (.of_eq hcounters hneighbor)

/-- Sessions that are changed in something else. -/
theorem tally?_of_ite {c : Prop} [Decidable c] {change : Session → Session}
    (hs : r'.session? i = if c then (r.session? i).map change else r.session? i)
    (hchange : ∀ s : Session, (change s).counters = s.counters ∧
      (change s).receiver.neighbor = s.receiver.neighbor) : r'.tally? i = r.tally? i := by
  rw [tally?, hs]
  split_ifs
  · rw [tally?, Option.map_map]
    congr 1
    funext s
    exact Prod.ext (hchange s).1 (hchange s).2
  · rfl

/-- A change of a session that leaves counters and neighbour alone is not counted. -/
theorem tally?_modify {change : Session → Session} (hp : ∀ s, (change s).port = s.port)
    (hchange : ∀ s : Session, (change s).counters = s.counters ∧
      (change s).receiver.neighbor = s.receiver.neighbor) :
    (r.modify j change).tally? i = r.tally? i :=
  tally?_of_ite (session?_modify hp) hchange

/-- To start a port counts nothing, whether or not its interface can be opened. -/
theorem tally?_start : (r.start j).2.tally? i = r.tally? i :=
  tally?_of_ite session?_start fun _ => ⟨rfl, rfl⟩

/-- To stop a port counts nothing, and its neighbour stays. -/
theorem tally?_stop : (r.stop j).2.tally? i = r.tally? i :=
  tally?_of_ite session?_stop fun _ => ⟨rfl, rfl⟩

/-- To start or stop a port as its switches say counts nothing. -/
theorem tally?_follow {on : Bool} : (r.follow j on).tally? i = r.tally? i := by
  unfold follow
  split_ifs
  · exact tally?_start
  · exact tally?_stop

/-- Nor does it for several ports, one after another. -/
theorem tally?_followAll {on : Bool} (is : List IfIndex) :
    (r.followAll is on).tally? i = r.tally? i := by
  induction is generalizing r with
  | nil => rfl
  | cons j is ih => exact ih.trans tally?_follow

/-- To record the state of a link counts nothing. -/
theorem tally?_setLink {state : LinkState} : (r.setLink j state).2.tally? i = r.tally? i := by
  rw [setLink_snd]
  exact tally?_modify (fun _ => rfl) fun _ => ⟨rfl, rfl⟩

/-- A neighbour whose alarm is cancelled stays, and counts as it did. -/
theorem tally?_cancelAlarm : (r.cancelAlarm j).tally? i = r.tally? i :=
  tally?_of_ite session?_cancelAlarm fun _ => ⟨rfl, rfl⟩

/-- Other timing counts nothing. -/
theorem tally?_retime {timing : Timing} : (r.retime timing).tally? i = r.tally? i := by
  rw [tally?, session?_retime, Option.map_map]
  rfl

/-- What others do to links and mailboxes is not counted. -/
theorem tally?_surround {x : Surroundings} : (r.surround x).tally? i = r.tally? i := by
  rw [tally?, session?_surround, Option.map_map]
  rfl

/-- **No change of settings is counted.** -/
theorem tally?_apply {change : Change} : (r.apply change).2.tally? i = r.tally? i := by
  cases change with
  | globalEnable on =>
    rw [apply_globalEnable]
    exact tally?_followAll _
  | portEnable j on =>
    rw [apply_portEnable]
    exact tally?_follow.trans (tally?_modify (fun _ => rfl) fun _ => ⟨rfl, rfl⟩)
  | timing interval multiplier =>
    rcases apply_timing_cases r interval multiplier with ⟨-, heq⟩ | ⟨timing, -, -, heq⟩
    · rw [heq]
    · rw [heq]
      exact tally?_retime

/-- **To stop all ports** leaves counters and neighbours as they are. -/
theorem tally?_shutdown : r.shutdown.tally? i = r.tally? i :=
  @rel_shutdown (fun q q' => q'.tally? i = q.tally? i) (fun _ => rfl)
    (fun _ _ _ h h' => h'.trans h) (fun _ _ => tally?_stop)
    (fun _ _ => tally?_cancelAlarm) r

/-- **A request is not counted**, unless it registers the port or forgets it. -/
theorem tally?_execute {q : Request}
    (hadd : ∀ port : Port, q = .add port → r.session? port.ifIndex = none → port.ifIndex ≠ i)
    (hremove : q ≠ .remove i) : (r.execute q).2.tally? i = r.tally? i := by
  cases q with
  | add port =>
    show (r.add port).2.tally? i = _
    cases hs : r.session? port.ifIndex with
    | some s => rw [add_of_session? hs]
    | none => rw [tally?, session?_add hs, if_neg (Ne.symm (hadd port rfl hs)), tally?]
  | remove j =>
    show (r.remove j).2.tally? i = _
    have hij : i ≠ j := fun h => hremove (by rw [h])
    rw [tally?, session?_remove, if_neg hij, tally?]
  | reportLink j state =>
    show (r.reportLink j state).2.tally? i = _
    rw [reportLink_snd]
    exact tally?_follow.trans tally?_setLink
  | neighbors start count => rfl
  | counters j => rfl
  | apply change => exact tally?_apply

/-! ### What is counted -/

/-- The entry that a packet makes when it is handed over, if it makes one. -/
def packetEntries (r : Registry) (p : Inbound) : List Entry :=
  if r.isCapturing p.ifIndex then [.packet p] else []

/-- The frame that is written when a port is asked to transmit, and its link. -/
def put? (r : Registry) (i : IfIndex) : Option (Nat × Octets) :=
  (r.written? i).bind fun bytes =>
    (r.capture? i).bind fun c => (r.backend.handles[c.handle]?).map fun hd => (hd.link, bytes)

/-- **What is written** goes through the handle of the port's capture, to its link. -/
theorem exists_handle_of_put? {bytes : Octets} (h : r.put? i = some (link, bytes)) :
    ∃ c hd, r.capture? i = some c ∧ r.backend.handles[c.handle]? = some hd ∧ hd.link = link := by
  obtain ⟨_, -, hput⟩ := Option.bind_eq_some_iff.1 h
  obtain ⟨c, hc, hput⟩ := Option.bind_eq_some_iff.1 hput
  obtain ⟨hd, hhd, heq⟩ := Option.map_eq_some_iff.1 hput
  exact ⟨c, hd, hc, hhd, (Prod.mk.inj heq).1⟩

/-- The entry that a request to transmit makes when it is met. -/
def attemptEntries (r : Registry) (i : IfIndex) : List Entry :=
  if r.isCapturing i then [.attempt i (r.put? i)] else []

/-- The entry that an alarm makes when it goes off. -/
def ageoutEntries (r : Registry) (i : IfIndex) : List Entry :=
  (r.neighbor? i).toList.map (.ageout i)

/-- A packet that is handed over makes nobody forget. -/
theorem isAgeout_packetEntries {e : Entry} (h : e ∈ r.packetEntries p) : e.isAgeout = false := by
  unfold packetEntries at h
  split_ifs at h
  · rw [List.mem_singleton.1 h]
    rfl
  · cases h

/-- An attempt to transmit makes nobody forget. -/
theorem isAgeout_attemptEntries {e : Entry} (h : e ∈ r.attemptEntries j) : e.isAgeout = false := by
  unfold attemptEntries at h
  split_ifs at h
  · rw [List.mem_singleton.1 h]
    rfl
  · cases h

/-- **A packet is counted** when it is handed over to a captured port: as accepted if it tells
of a neighbour, and else as refused. -/
theorem books_handleInbound :
    r.Books (r.handleInbound now p) i (r.packetEntries p) := by
  unfold handleInbound packetEntries isCapturing
  cases hs : r.session? p.ifIndex with
  | none => exact .refl r i
  | some s =>
    cases hc : s.isCapturing with
    | false => simpa [hc] using Books.refl r i
    | true =>
      simp only [Option.any_some, hc, if_true, Bool.not_true, Bool.false_eq_true, if_false]
      have hown : ∀ e ∈ [Entry.packet p], e.ifIndex = p.ifIndex := by simp [Entry.ifIndex]
      cases hp : Neighbor.ofPacket p.bytes with
      | error e =>
        have hrefused : p.isAcceptable = false := by rw [Inbound.isAcceptable, hp]
        simp only [Receiver.process, hp]
        refine .of_ite (session?_modify fun _ => rfl) hown fun t ht => ?_
        obtain rfl := Option.some.inj (hs.symm.trans ht)
        refine ⟨?_, ?_⟩
        · rw [Counters.noting_packet, hrefused]
          rfl
        · simp [Entry.isAccepted, Entry.isAgeout, hrefused, Session.held]
      | ok n =>
        have haccepted : p.isAcceptable = true := by rw [Inbound.isAcceptable, hp]
        simp only [Receiver.process, hp]
        refine .of_ite (session?_modify fun _ => rfl) hown fun t ht => ?_
        obtain rfl := Option.some.inj (hs.symm.trans ht)
        refine ⟨?_, ?_⟩
        · rw [Counters.noting_packet, haccepted]
          rfl
        · have hheld : ∀ q : Session, q.held ≤ 1 := fun q => by
            unfold Session.held
            split_ifs <;> omega
          exact Nat.le_trans (hheld _) (by simp [Entry.isAccepted, haccepted])

/-- **A request to transmit is counted** when it is met on a captured port: as sent if it puts
a frame on a link, and else as failed. -/
theorem books_handleTransmit : r.Books (r.handleTransmit j) i (r.attemptEntries j) := by
  have hown : ∀ w : Option (Nat × Octets), ∀ e ∈ [Entry.attempt j w], e.ifIndex = j := by
    simp [Entry.ifIndex]
  rcases handleTransmit_cases r j with ⟨hidle, heq⟩ | ⟨s, c, hs, hc, hcases⟩
  · have hnone : r.isCapturing j = false := by
      unfold isCapturing
      cases hs : r.session? j with
      | none => rfl
      | some s => simp [Session.isCapturing, hidle s hs]
    rw [heq, attemptEntries, hnone]
    exact .refl r i
  · have hcapturing : r.isCapturing j = true := by simp [isCapturing, hs, Session.isCapturing, hc]
    have hcapture : r.capture? j = some c := by rw [capture?, hs, Option.bind_some, hc]
    rw [attemptEntries, hcapturing, if_pos rfl]
    rcases hcases with ⟨hnil, heq⟩ | ⟨hne, ⟨e, hw⟩, heq⟩ | ⟨hne, lo, hw, heq⟩
    · have hput : r.put? j = none := by simp [put?, written?, hs, hc, hnil]
      rw [heq, hput]
      exact .of_ite (session?_modify fun _ => rfl) (hown none) fun t _ =>
        ⟨Counters.noting_attempt_none .. |>.symm, Nat.le_refl _⟩
    · have hput : r.put? j = none := by simp [put?, written?, hs, hc, hne, hw, Except.toOption]
      rw [heq, hput]
      exact .of_ite (session?_modify fun _ => rfl) (hown none) fun t _ =>
        ⟨Counters.noting_attempt_none .. |>.symm, Nat.le_refl _⟩
    · obtain ⟨hd, hhd, -⟩ := Loopback.sentAt_of_write hw
      have hput : r.put? j =
          some (hd.link, (s.transmitter.current s.port.mac s.port.name).1) := by
        simp [put?, written?, hs, hc, hne, hw, Except.toOption, hcapture, hhd]
      rw [heq, hput]
      have hsession : ({ r with backend := lo }.modify j
          (·.countSent (s.transmitter.current s.port.mac s.port.name).2)).session? i =
          if i = j then (r.session? i).map
            (·.countSent (s.transmitter.current s.port.mac s.port.name).2) else r.session? i :=
        session?_modify fun _ => rfl
      exact .of_ite hsession (hown _) fun t _ =>
        ⟨Counters.noting_attempt_some .. |>.symm, Nat.le_refl _⟩

/-- **An alarm that goes off is counted** if there is a neighbour to forget. -/
theorem books_handleExpiry : r.Books (r.handleExpiry j) i (r.ageoutEntries j) := by
  have hown : ∀ e ∈ r.ageoutEntries j, e.ifIndex = j := by
    intro e he
    obtain ⟨n, -, rfl⟩ := List.mem_map.1 he
    rfl
  refine .of_ite session?_handleExpiry hown fun s hs => ?_
  have hneighbor : r.neighbor? j = s.receiver.neighbor := by
    rw [neighbor?, receiver?_of_session? hs, Option.bind_some]
  rw [ageoutEntries, hneighbor]
  cases hn : s.receiver.neighbor with
  | none => exact ⟨rfl, by simp [Session.held, hn]⟩
  | some n => exact ⟨rfl, by simp [Session.held, hn, Entry.isAgeout, Entry.isAccepted]⟩

/-! ### What is written -/

/-- Packets and alarms write nothing. -/
theorem frameOn_packetEntries : (r.packetEntries p).filterMap (Entry.frameOn link) = [] := by
  unfold packetEntries
  split_ifs <;> rfl

/-- A neighbour that is forgotten puts no frame on a link. -/
theorem frameOn_ageoutEntries : (r.ageoutEntries j).filterMap (Entry.frameOn link) = [] := by
  unfold ageoutEntries
  cases r.neighbor? j <;> rfl

/-- **What a request to transmit puts on links** is in its entry. -/
theorem sentAt_attempt :
    (r.handleTransmit j).backend.sentAt link =
      r.backend.sentAt link ++ (r.attemptEntries j).filterMap (Entry.frameOn link) := by
  rcases sentAt_handleTransmit r j with ⟨hnone, hsame⟩ | ⟨bytes, s, c, hd, hw, hs, hc, hhd, hsent⟩
  · have hput : r.put? j = none := by rw [put?, hnone, Option.bind_none]
    rw [hsame, attemptEntries, hput]
    split_ifs <;> simp [Entry.frameOn, Entry.written?]
  · have hcapturing : r.isCapturing j = true := by simp [isCapturing, hs, Session.isCapturing, hc]
    have hcapture : r.capture? j = some c := by rw [capture?, hs, Option.bind_some, hc]
    have hput : r.put? j = some (hd.link, bytes) := by simp [put?, hw, hcapture, hhd]
    rw [hsent, attemptEntries, hcapturing, hput, if_pos rfl]
    by_cases hlink : link = hd.link
    · simp [Entry.frameOn, Entry.written?, hlink]
    · simp [Entry.frameOn, Entry.written?, hlink, Ne.symm hlink]

end Registry
end Lldp
