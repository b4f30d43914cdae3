/-
# What a port has counted since it was registered

What an incident adds to the books of ports can be told beforehand: a packet or a request
to transmit is handed over, or an alarm goes off (`entries`), and whatever an incident does
besides is not counted (`counted_cases`).  Unless it registers the port or forgets it, the
port's counters after an incident are those before it with these entries added
(`books_cases`), and so are they after any stretch of a run along which the port is
registered (`books_run`).  A port that is registered now was registered by a request, with
counters of zero, and has been since (`exists_registration`): its counters are what the
entries since then add up to (`counters_add_up`).

What happens to a service while its dispatcher is there happens to its station in such a run
(`Service.exists_run`).

Frames that are written are recorded on their links, and nothing else is: what stands on a
link is what the entries of all ports say was written on it, in its order (`sentAt_run`).
-/

import Lldp.Proofs.Neighbor
import Lldp.Proofs.Registry.AtRest
import Lldp.Proofs.Registry.Counting
import Lldp.Proofs.Station.Order
import Lldp.Proofs.Station.Readers

namespace Lldp

/-- Whether an incident has to do neither with a packet nor with a request to transmit nor
with an alarm that goes off: tasks make their steps, requests are met, ports are started
and stopped, links and the time go on, everything is stopped. -/
def Incident.isUncounted : Incident → Bool
  | .operation (.inbound _) | .operation (.transmit _) | .operation (.fire _) | .expiry _ => false
  | .packet deliver | .trigger deliver => !deliver
  | _ => true

namespace Station

variable {st : Station} {x : Incident} {incidents late : List Incident} {i : IfIndex}
  {s s' : Session} {link : Nat}

/-- The ports that are told of an alarm. -/
def fired (st : Station) : Incident → List IfIndex
  | .operation (.fire j) => if (st.registry.alarms.dueOf? st.now j).isSome then [j] else []
  | .expiry j => [j]
  | _ => []

/-- The entries that an incident makes in the books of ports. -/
def entries (st : Station) : Incident → List Entry
  | .operation (.inbound p) => st.registry.packetEntries p
  | .packet true => (st.inbound.items.take 1).flatMap st.registry.packetEntries
  | .operation (.transmit j) => st.registry.attemptEntries j
  | .trigger true => (st.registry.triggers.items.take 1).flatMap st.registry.attemptEntries
  | x => (st.fired x).flatMap st.registry.ageoutEntries

/-- The entries that a run makes, in their order. -/
def ledger (st : Station) (incidents : List Incident) : List Entry :=
  Trace.outputs after entries st incidents

/-! ### One incident -/

/-- **What an incident does that may be counted.**  It hands a packet over, or a request to
transmit, or tells a port of an alarm; or it finds nothing to hand over. -/
inductive Counted (st : Station) (x : Incident) : Prop where
  | nothing (hr : (st.after x).registry = st.registry) (he : st.entries x = [])
      (hf : st.fired x = [])
  | packet (p : Inbound) (hr : (st.after x).registry = st.registry.handleInbound st.now p)
      (he : st.entries x = st.registry.packetEntries p) (hf : st.fired x = [])
  | attempt (triggers : Triggers) (j : IfIndex)
      (hr : (st.after x).registry = { st.registry with triggers }.handleTransmit j)
      (he : st.entries x = { st.registry with triggers }.attemptEntries j) (hf : st.fired x = [])
  | ageout (alarms : Expiry) (j : IfIndex)
      (hr : (st.after x).registry = { st.registry with alarms }.handleExpiry j)
      (he : st.entries x = { st.registry with alarms }.ageoutEntries j) (hf : st.fired x = [j])

/-- **Every incident is counted in one of these ways**, or it makes no entry. -/
theorem counted_cases (st : Station) (x : Incident) :
    x.isUncounted = true ∧ st.entries x = [] ∧ st.fired x = [] ∨
      x.isUncounted = false ∧ st.Counted x := by
  cases x with
  | operation o =>
    cases o with
    | inbound p => exact Or.inr ⟨rfl, .packet p rfl rfl rfl⟩
    | transmit j => exact Or.inr ⟨rfl, .attempt st.registry.triggers j rfl rfl rfl⟩
    | fire j =>
      have hfired : st.fired (.operation (.fire j)) =
          if (st.registry.alarms.dueOf? st.now j).isSome then [j] else [] := rfl
      have hentries : st.entries (.operation (.fire j)) =
          (st.fired (.operation (.fire j))).flatMap st.registry.ageoutEntries := rfl
      have hafter : (st.after (.operation (.fire j))).registry =
          (st.registry.alarms.dueOf? st.now j).elim st.registry (st.registry.expire st.now) := rfl
      cases hdue : st.registry.alarms.dueOf? st.now j with
      | none =>
        rw [hdue] at hfired hafter
        exact Or.inr ⟨rfl, .nothing hafter (by rw [hentries, hfired]; rfl) hfired⟩
      | some alarm =>
        obtain ⟨-, hj, -⟩ := Registry.of_dueOf? hdue
        rw [hdue, Option.isSome_some, if_pos rfl] at hfired
        rw [hfired, List.flatMap_singleton] at hentries
        rw [hdue, Option.elim_some, Registry.expire, hj] at hafter
        exact Or.inr ⟨rfl, .ageout _ j hafter hentries hfired⟩
    | _ => exact Or.inl ⟨rfl, rfl, rfl⟩
  | expiry j =>
    exact Or.inr ⟨rfl, .ageout st.registry.alarms j rfl (List.flatMap_singleton ..) rfl⟩
  | packet deliver =>
    cases deliver with
    | false => exact Or.inl ⟨rfl, rfl, rfl⟩
    | true =>
      have hentries : st.entries (.packet true) =
          (st.inbound.items.take 1).flatMap st.registry.packetEntries := rfl
      cases htake : st.inbound.take? with
      | none =>
        rw [Mailbox.items_of_take?_eq_none htake] at hentries
        exact Or.inr ⟨rfl, .nothing (by rw [after, htake]) hentries rfl⟩
      | some item =>
        obtain ⟨rest, hitems, -⟩ := Mailbox.take?_eq_some_iff.1 htake
        rw [hitems] at hentries
        exact Or.inr ⟨rfl, .packet item.1 (by rw [after, htake]; rfl)
          (hentries.trans (List.flatMap_singleton ..)) rfl⟩
  | trigger deliver =>
    cases deliver with
    | false => exact Or.inl ⟨rfl, rfl, rfl⟩
    | true =>
      have hentries : st.entries (.trigger true) =
          (st.registry.triggers.items.take 1).flatMap st.registry.attemptEntries := rfl
      cases htake : st.registry.triggers.take? with
      | none =>
        rw [Mailbox.items_of_take?_eq_none htake] at hentries
        exact Or.inr ⟨rfl, .nothing (by rw [after, htake]) hentries rfl⟩
      | some item =>
        obtain ⟨rest, hitems, -⟩ := Mailbox.take?_eq_some_iff.1 htake
        rw [hitems] at hentries
        exact Or.inr ⟨rfl, .attempt item.2 item.1 (by rw [after, htake]; rfl)
          (hentries.trans (List.flatMap_singleton ..)) rfl⟩
  | _ => exact Or.inl ⟨rfl, rfl, rfl⟩

/-- What is not counted leaves what ports have counted, and their neighbours. -/
theorem tally?_of_isUncounted (h : x.isUncounted = true)
    (hadd : ∀ port : Port, x = .operation (.request (.add port)) →
      st.registry.session? port.ifIndex = none → port.ifIndex ≠ i)
    (hremove : x ≠ .operation (.request (.remove i))) :
    (st.after x).registry.tally? i = st.registry.tally? i := by
  cases x with
  | task task =>
    obtain ⟨-, surroundings, hdrift⟩ := drifts_step st task
    rw [after_task, hdrift, Registry.tally?_surround]
  | operation o =>
    cases o with
    | request q =>
      exact Registry.tally?_execute (fun port hq => hadd port (by rw [hq]))
        fun hq => hremove (by rw [hq])
    | setLink j state => exact Registry.tally?_setLink
    | start j => exact Registry.tally?_start
    | stop j => exact Registry.tally?_stop
    | inbound p => cases h
    | transmit j => cases h
    | fire j => cases h
    | links use => rfl
    | pass ms => rfl
  | expiry j => cases h
  | shutdown => exact Registry.tally?_shutdown
  | packet deliver =>
    obtain rfl : deliver = false := by simpa [Incident.isUncounted] using h
    rw [after]
    cases st.inbound.take? <;> rfl
  | trigger deliver =>
    obtain rfl : deliver = false := by simpa [Incident.isUncounted] using h
    rw [after]
    cases st.registry.triggers.take? <;> rfl
  | turn => rfl
  | exit => rfl
  | close => rfl

/-- What is not counted writes nothing. -/
theorem sentAt_of_isUncounted (h : x.isUncounted = true) (hranked : st.registry.Ranked) :
    (st.after x).registry.backend.sentAt link = st.registry.backend.sentAt link := by
  cases x with
  | task task => exact sentAt_step hranked task link
  | operation o =>
    cases o with
    | request q => exact Registry.execute_sentAt
    | setLink j state =>
      show (st.registry.setLink j state).2.backend.sentAt link = _
      rw [Registry.setLink_snd, Registry.modify_backend]
    | start j => exact Registry.start_sentAt
    | stop j => exact Registry.stop_sentAt
    | inbound p => cases h
    | transmit j => cases h
    | fire j => cases h
    | links use => exact Loopback.sentAt_use
    | pass ms => rfl
  | expiry j => cases h
  | shutdown => exact Registry.sentAt_shutdown
  | packet deliver =>
    obtain rfl : deliver = false := by simpa [Incident.isUncounted] using h
    rw [after]
    cases st.inbound.take? <;> rfl
  | trigger deliver =>
    obtain rfl : deliver = false := by simpa [Incident.isUncounted] using h
    rw [after]
    cases st.registry.triggers.take? <;> rfl
  | turn => rfl
  | exit => rfl
  | close => rfl

/-- **What becomes of a port in an incident.**  It is registered, and has counted nothing; or
it is forgotten; or its books go on. -/
theorem books_cases (st : Station) (x : Incident) (i : IfIndex) :
    (∃ port : Port, x = .operation (.request (.add port)) ∧ port.ifIndex = i ∧
      st.registry.session? i = none ∧
      (st.after x).registry.session? i = some (.ofPort port st.registry.settings.timing)) ∨
    (x = .operation (.request (.remove i)) ∧ (st.after x).registry.session? i = none) ∨
    st.registry.Books (st.after x).registry i (st.entries x) := by
  by_cases hremove : x = .operation (.request (.remove i))
  · subst hremove
    refine Or.inr (Or.inl ⟨rfl, ?_⟩)
    show (st.registry.remove i).2.session? i = none
    rw [Registry.session?_remove, if_pos rfl]
  by_cases hadd : ∃ port : Port, x = .operation (.request (.add port)) ∧ port.ifIndex = i ∧
      st.registry.session? i = none
  · obtain ⟨port, rfl, rfl, hnone⟩ := hadd
    refine Or.inl ⟨port, rfl, rfl, hnone, ?_⟩
    show (st.registry.add port).2.session? port.ifIndex = _
    rw [Registry.session?_add hnone, if_pos rfl]
  refine Or.inr (Or.inr ?_)
  rcases counted_cases st x with ⟨hx, he, -⟩ | ⟨-, hcounted⟩
  · rw [he]
    refine .of_tally (tally?_of_isUncounted hx (fun port hport hnone hi => ?_) hremove)
    exact hadd ⟨port, hport, hi, hi ▸ hnone⟩
  · cases hcounted with
    | nothing hr he hf =>
      rw [hr, he]
      exact .refl _ i
    | packet p hr he hf =>
      rw [hr, he]
      exact Registry.books_handleInbound
    | attempt triggers j hr he hf =>
      rw [hr, he]
      exact @Registry.books_handleTransmit { st.registry with triggers } i j
    | ageout alarms j hr he hf =>
      rw [hr, he]
      exact @Registry.books_handleExpiry { st.registry with alarms } i j

/-- **A port is counted to have forgotten a neighbour** if it is told of an alarm while it
has one, and then once. -/
theorem countP_isAgeout_entries (st : Station) (x : Incident) (i : IfIndex) :
    ((st.entries x).filter (·.ifIndex = i)).countP Entry.isAgeout =
      if i ∈ st.fired x ∧ (st.registry.neighbor? i).isSome = true then 1 else 0 := by
  have hnone : ∀ {es : List Entry}, (∀ e ∈ es, e.isAgeout = false) →
      (es.filter (·.ifIndex = i)).countP Entry.isAgeout = 0 := fun h =>
    List.countP_eq_zero.2 fun e he => by simp [h e (List.mem_filter.1 he).1]
  rcases counted_cases st x with ⟨-, he, hf⟩ | ⟨-, hcounted⟩
  · rw [he, hf, hnone (by simp), if_neg (by simp)]
  · cases hcounted with
    | nothing hr he hf => rw [he, hf, hnone (by simp), if_neg (by simp)]
    | packet p hr he hf =>
      rw [he, hf, hnone fun e => st.registry.isAgeout_packetEntries, if_neg (by simp)]
    | attempt triggers j hr he hf =>
      rw [he, hf, hnone fun e => Registry.isAgeout_attemptEntries, if_neg (by simp)]
    | ageout alarms j hr he hf =>
      have hsame : { st.registry with alarms }.neighbor? j = st.registry.neighbor? j := rfl
      rw [he, hf, Registry.ageoutEntries, hsame]
      by_cases hij : i = j
      · subst hij
        cases st.registry.neighbor? i <;> simp [Entry.ifIndex, Entry.isAgeout]
      · cases st.registry.neighbor? j <;> simp [Entry.ifIndex, hij, Ne.symm hij]

/-- **What an incident writes on a link** is in the entries that it makes. -/
theorem sentAt_after (hranked : st.registry.Ranked) (x : Incident) (link : Nat) :
    (st.after x).registry.backend.sentAt link =
      st.registry.backend.sentAt link ++ (st.entries x).filterMap (Entry.frameOn link) := by
  rcases counted_cases st x with ⟨hx, he, -⟩ | ⟨-, hcounted⟩
  · rw [he, sentAt_of_isUncounted hx hranked]
    exact (List.append_nil _).symm
  · cases hcounted with
    | nothing hr he hf =>
      rw [hr, he]
      exact (List.append_nil _).symm
    | packet p hr he hf =>
      rw [hr, he, Registry.handleInbound_backend, Registry.frameOn_packetEntries, List.append_nil]
    | attempt triggers j hr he hf =>
      rw [hr, he]
      exact @Registry.sentAt_attempt { st.registry with triggers } j link
    | ageout alarms j hr he hf =>
      rw [hr, he, Registry.handleExpiry_frame.2.1, Registry.frameOn_ageoutEntries, List.append_nil]

/-- A port that is told of an alarm has no neighbour any more. -/
theorem neighbor?_of_mem_fired (h : i ∈ st.fired x) :
    (st.after x).registry.neighbor? i = none := by
  rcases counted_cases st x with ⟨-, -, hf⟩ | ⟨-, hcounted⟩
  · rw [hf] at h
    cases h
  · cases hcounted with
    | ageout alarms j hr he hf =>
      rw [hf] at h
      obtain rfl := List.mem_singleton.1 h
      rw [hr, Registry.neighbor?, Registry.receiver?, Registry.session?_handleExpiry, if_pos rfl]
      cases { st.registry with alarms }.session? i <;> rfl
    | nothing hr he hf | packet p hr he hf | attempt triggers j hr he hf =>
      rw [hf] at h
      cases h

/-- **What a port writes** goes through the handle of its capture, to the link of that. -/
theorem exists_handle_of_attempt {bytes : Octets}
    (h : Entry.attempt i (some (link, bytes)) ∈ st.entries x) :
    ∃ c hd, st.registry.capture? i = some c ∧
      st.registry.backend.handles[c.handle]? = some hd ∧ hd.link = link := by
  rcases counted_cases st x with ⟨-, he, -⟩ | ⟨-, hcounted⟩
  · rw [he] at h
    cases h
  · cases hcounted with
    | nothing hr he hf =>
      rw [he] at h
      cases h
    | packet p hr he hf =>
      rw [he, Registry.packetEntries] at h
      split_ifs at h
      · cases List.mem_singleton.1 h
      · cases h
    | attempt triggers j hr he hf =>
      rw [he, Registry.attemptEntries] at h
      split_ifs at h
      · obtain ⟨rfl, hput⟩ := Entry.attempt.inj (List.mem_singleton.1 h)
        exact @Registry.exists_handle_of_put? { st.registry with triggers } i link bytes hput.symm
      · cases h
    | ageout alarms j hr he hf =>
      rw [he, Registry.ageoutEntries] at h
      obtain ⟨n, -, heq⟩ := List.mem_map.1 h
      cases heq

/-- The port is registered. -/
def HasPort (i : IfIndex) (st : Station) : Prop := st.registry.isRegistered i = true

/-- **What an incident adds to the counters of a port** that it does not forget. -/
theorem counters_after (hs : st.registry.session? i = some s) (x : Incident) :
    x = .operation (.request (.remove i)) ∧ ¬HasPort i (st.after x) ∨
      ∃ s', (st.after x).registry.session? i = some s' ∧
        s'.counters = s.counters.noting ((st.entries x).filter (·.ifIndex = i)) ∧
        s'.counters.ageouts = s.counters.ageouts +
          (if i ∈ st.fired x ∧ s.receiver.neighbor.isSome then 1 else 0) ∧
        (i ∈ st.fired x → s'.receiver.neighbor = none) ∧
        (∀ link bytes, Entry.attempt i (some (link, bytes)) ∈ st.entries x →
          ∃ c hd, s.capture = some c ∧ st.registry.backend.handles[c.handle]? = some hd ∧
            hd.link = link) ∧
        (x.isUncounted = true → s'.counters = s.counters) := by
  rcases books_cases st x i with ⟨port, -, -, hnone, -⟩ | ⟨hx, hnone⟩ | hbooks
  · rw [hs] at hnone
    cases hnone
  · refine Or.inl ⟨hx, fun hport => ?_⟩
    rw [HasPort, Registry.isRegistered, hnone] at hport
    cases hport
  · obtain ⟨s', hs', hown⟩ := hbooks.exists_session hs
    have hneighbor : st.registry.neighbor? i = s.receiver.neighbor := by
      rw [Registry.neighbor?, Registry.receiver?_of_session? hs, Option.bind_some]
    have hneighbor' : (st.after x).registry.neighbor? i = s'.receiver.neighbor := by
      rw [Registry.neighbor?, Registry.receiver?_of_session? hs', Option.bind_some]
    have hcapture : st.registry.capture? i = s.capture := by
      rw [Registry.capture?, hs, Option.bind_some]
    refine Or.inr ⟨s', hs', hown.counters, ?_, fun hfired => ?_, fun link bytes hput => ?_,
      fun hx => ?_⟩
    · rw [hown.counters, Counters.noting, countP_isAgeout_entries, hneighbor]
    · rw [← hneighbor']
      exact neighbor?_of_mem_fired hfired
    · rw [← hcapture]
      exact exists_handle_of_attempt hput
    · rcases counted_cases st x with ⟨-, he, -⟩ | ⟨hcounted, -⟩
      · rw [hown.counters, he]
        rfl
      · rw [hcounted] at hx
        cases hx

/-! ### Runs -/

/-- **What a stretch of a run adds to the books of a port** that is registered all along it. -/
theorem books_run (h : st.Always (HasPort i) late) (hs : st.registry.session? i = some s) :
    ∃ s', (st.run late).registry.session? i = some s' ∧
      s.Books s' ((st.ledger late).filter (·.ifIndex = i)) := by
  induction late generalizing st s with
  | nil => exact ⟨s, hs, .of_eq rfl rfl⟩
  | cons x late ih =>
    have hthen : (st.after x).registry.isRegistered i = true := h.tail.first
    rcases books_cases st x i with ⟨port, -, -, hnone, -⟩ | ⟨-, hnone⟩ | hbooks
    · rw [hs] at hnone
      cases hnone
    · rw [Registry.isRegistered, hnone] at hthen
      cases hthen
    · obtain ⟨s₁, hs₁, hfirst⟩ := hbooks.exists_session hs
      obtain ⟨s', hs', hrest⟩ := ih h.tail hs₁
      refine ⟨s', hs', ?_⟩
      show s.Books s' ((st.entries x ++ (st.after x).ledger late).filter _)
      rw [List.filter_append]
      exact hfirst.trans hrest

/-- **What stands on a link** is what was written on it, in its order. -/
theorem sentAt_run (hranked : st.registry.Ranked) (incidents : List Incident) (link : Nat) :
    (st.run incidents).registry.backend.sentAt link =
      st.registry.backend.sentAt link ++
        (st.ledger incidents).filterMap (Entry.frameOn link) := by
  induction incidents generalizing st with
  | nil => exact (List.append_nil _).symm
  | cons x incidents ih =>
    show ((st.after x).run incidents).registry.backend.sentAt link =
      _ ++ (st.entries x ++ (st.after x).ledger incidents).filterMap _
    rw [ih (ranked_after hranked x), sentAt_after hranked, List.filterMap_append,
      List.append_assoc]

/-- **A port that is registered** was registered by a request, has counted nothing then, and
has been registered since. -/
theorem exists_registration {settings : Settings}
    (h : HasPort i ((ofSettings settings).run incidents)) :
    ∃ before port late, incidents = before ++ .operation (.request (.add port)) :: late ∧
      port.ifIndex = i ∧ ¬HasPort i ((ofSettings settings).run before) ∧
      ((ofSettings settings).run
        (before ++ [.operation (.request (.add port))])).Always (HasPort i) late ∧
      ∃ timing, ((ofSettings settings).run
        (before ++ [.operation (.request (.add port))])).registry.session? i =
          some (.ofPort port timing) := by
  have hfirst : ¬HasPort i (ofSettings settings) := by
    intro hport
    cases hport
  obtain ⟨before, x, late, heq, hnot, hall⟩ := Trace.exists_onset hfirst h
  have hthen : HasPort i (((ofSettings settings).run before).after x) := by
    rw [← run_concat]
    exact hall.first
  rcases books_cases ((ofSettings settings).run before) x i with
    ⟨port, rfl, hi, hnone, hs⟩ | ⟨-, hnone⟩ | hbooks
  · refine ⟨before, port, late, heq, hi, hnot, hall,
      ((ofSettings settings).run before).registry.settings.timing, ?_⟩
    rw [run_concat]
    exact hs
  · rw [HasPort, Registry.isRegistered, hnone] at hthen
    cases hthen
  · rw [HasPort, hbooks.isRegistered] at hthen
    exact absurd hthen hnot

/-- **The counters of a port add up.**

* A port that is registered was registered by a request and has been since.  Its counters are
  what its books since then add up to: as many packets were accepted or discarded as were
  handed over for it while it was captured, and those it has received are those that tell of
  a neighbour; as many requests to transmit were met while it was captured as were sent or
  failed, and those sent are those that put a frame on a link; it has aged out as many
  neighbours as an alarm made it forget, and together with the one it remembers these are no
  more than it has received.
* What stands on a link is what the books of all ports say was written on it.
* An incident adds to the counters of a port what it enters in the port's books, and never
  takes anything away unless it is the request to forget the port.  It adds to those that
  were aged out if the port is told of an alarm while it remembers a neighbour, and then one,
  and the port remembers none any more.  What it says was written for the port went through
  the handle of the port's capture.  To start and to stop, to report links and to change
  settings adds nothing. -/
theorem counters_add_up (settings : Settings) (incidents : List Incident) (i : IfIndex) :
    let reached := fun early => (ofSettings settings).run early
    (∀ s, (reached incidents).registry.session? i = some s →
      ∃ before port late, incidents = before ++ .operation (.request (.add port)) :: late ∧
        port.ifIndex = i ∧ ¬HasPort i (reached before) ∧
        let start := reached (before ++ [.operation (.request (.add port))])
        let books := (start.ledger late).filter (·.ifIndex = i)
        start.Always (HasPort i) late ∧
        s.counters.received + s.counters.discarded = books.countP Entry.isPacket ∧
        s.counters.received = books.countP Entry.isAccepted ∧
        s.counters.sent + s.counters.sendFailures = books.countP Entry.isAttempt ∧
        s.counters.sent = (books.filterMap Entry.written?).length ∧
        s.counters.ageouts = books.countP Entry.isAgeout ∧
        s.counters.ageouts + (if s.receiver.neighbor.isSome then 1 else 0) ≤
          s.counters.received) ∧
    (∀ link, (reached incidents).registry.backend.sentAt link =
      ((ofSettings settings).ledger incidents).filterMap (Entry.frameOn link)) ∧
    ∀ before x late s, incidents = before ++ x :: late →
      (reached before).registry.session? i = some s →
      x = .operation (.request (.remove i)) ∧ ¬HasPort i (reached (before ++ [x])) ∨
        ∃ s', (reached (before ++ [x])).registry.session? i = some s' ∧
          s'.counters = s.counters.noting (((reached before).entries x).filter (·.ifIndex = i)) ∧
          s'.counters.ageouts = s.counters.ageouts +
            (if i ∈ (reached before).fired x ∧ s.receiver.neighbor.isSome then 1 else 0) ∧
          (i ∈ (reached before).fired x → s'.receiver.neighbor = none) ∧
          (∀ link bytes, Entry.attempt i (some (link, bytes)) ∈ (reached before).entries x →
            ∃ c hd, s.capture = some c ∧
              (reached before).registry.backend.handles[c.handle]? = some hd ∧ hd.link = link) ∧
          (x.isUncounted = true → s'.counters = s.counters) := by
  intro reached
  refine ⟨fun s hs => ?total, fun link => sentAt_run (ranked_run settings []) incidents link,
    fun before x late s _ hs => ?step⟩
  case total =>
    have hport : HasPort i (reached incidents) := by rw [HasPort, Registry.isRegistered, hs]; rfl
    obtain ⟨before, port, late, rfl, hi, hnot, hall, timing, hstart⟩ := exists_registration hport
    obtain ⟨s', hs', hbooks⟩ := books_run hall hstart
    have hrun : reached (before ++ .operation (.request (.add port)) :: late) =
        (reached (before ++ [.operation (.request (.add port))])).run late := by
      rw [← run_append, List.append_assoc]
      rfl
    rw [hrun] at hs
    obtain rfl := Option.some.inj (hs.symm.trans hs')
    obtain ⟨hheard, hreceived, htried, hsent, haged⟩ := Counters.noting_zero hbooks.counters
    refine ⟨before, port, late, rfl, hi, hnot, hall, hheard, hreceived, htried, hsent, haged, ?_⟩
    show s.counters.ageouts + s.held ≤ s.counters.received
    have hheld := hbooks.held
    have hfresh : (Session.ofPort port timing).held = 0 := rfl
    omega
  case step =>
    have hafter : reached (before ++ [x]) = (reached before).after x := run_concat ..
    rw [hafter]
    exact counters_after hs x

/-- A port is registered. -/
def arrival : Incident :=
  .operation (.request (.add
    { ifIndex := 1, number := 1, name := "Ethernet0", mac := ⟨2, 0, 0, 0, 0, 1⟩ }))

/-- The port is captured, sends, hears a neighbour and something else, and cannot send; the
neighbour falls silent, and is heard again when the port is stopped and has been started
again, but not in between. -/
def busy : List Incident :=
  let link (state : LinkState) : Incident := .operation (.request (.reportLink 1 state))
  let hear (bytes : Octets) : Incident := .operation (.inbound { ifIndex := 1, bytes })
  let greeting := Ethernet.build Receiver.writer.source Receiver.writtenUnit
  [link .up, .trigger true, hear greeting, hear [0, 1],
    .operation (.links (.failWrite "Ethernet0" true)), .operation (.transmit 1),
    .operation (.pass 120000), .operation (.fire 1),
    link .down, hear greeting, link .up, hear greeting]

/-- The port has received two packets and refused one, sent one frame and failed to send one,
and forgotten one neighbour and remembers one. -/
theorem busy_adds_up :
    let st := (ofSettings {}).run (arrival :: busy)
    ∃ s, st.registry.session? 1 = some s ∧ s.counters = ⟨2, 1, 1, 1, 1⟩ ∧
      s.receiver.neighbor.isSome = true ∧
      ∃ before port late, arrival :: busy = before ++ .operation (.request (.add port)) :: late ∧
        port.ifIndex = 1 ∧
        let start := (ofSettings {}).run (before ++ [.operation (.request (.add port))])
        let books := (start.ledger late).filter (·.ifIndex = 1)
        books.countP Entry.isPacket = 3 ∧ books.countP Entry.isAttempt = 2 ∧
          (books.filterMap Entry.written?).length = 1 ∧ books.countP Entry.isAgeout = 1 := by
  intro st
  have hcounted : (st.registry.session? 1).map (fun s => (s.counters, s.receiver.neighbor.isSome)) =
      some (⟨2, 1, 1, 1, 1⟩, true) := by decide +kernel
  obtain ⟨s, hs, heq⟩ := Option.map_eq_some_iff.1 hcounted
  obtain ⟨hcounters, hneighbor⟩ := Prod.mk.inj heq
  obtain ⟨htotal, -, -⟩ := counters_add_up {} (arrival :: busy) 1
  obtain ⟨before, port, late, hsplit, hi, -, -, hheard, -, htried, hsent, haged, -⟩ := htotal s hs
  rw [hcounters] at hheard htried hsent haged
  exact ⟨s, hs, hcounters, hneighbor, before, port, late, hsplit, hi, hheard.symm, htried.symm,
    hsent.symm, haged.symm⟩

end Station
end Lldp
