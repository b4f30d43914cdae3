/-
# Queries are complete

In every state that a station can get into, the captured ports have sessions
(`Registry.InOrder.exists_shows`), so whoever follows the pages of a query from the first
to the last gets the row of every captured port once, in the order in which the ports
were started (`Station.query_complete`).

A row shows the neighbour that the port remembers.  What it shows beside the identifiers
is kept apart from the frame and yet is what the frame says, for ports learn from
acceptable packets only (`Station.exists_packet_run`).
-/

import Lldp.Proofs.Registry.Paging
import Lldp.Proofs.Registry.Receivers
import Lldp.Proofs.Neighbor
import Lldp.Proofs.Station.Order

namespace Lldp

/-! ### What ports have learned -/

namespace Registry

variable {r r' : Registry} {i : IfIndex} {n : Neighbor}

/-- Whatever a port remembers that it did not remember before, some packet says. -/
def LearnsFromPackets (r r' : Registry) : Prop :=
  ∀ i n, r'.neighbor? i = some n →
    r.neighbor? i = some n ∨ ∃ packet, Neighbor.ofPacket packet = .ok n

theorem LearnsNothing.learnsFromPackets (h : LearnsNothing r r') : LearnsFromPackets r r' :=
  fun i n hn => Or.inl (h i n hn)

theorem learnsFromPackets_handleInbound {now : Nat} {packet : Inbound} :
    LearnsFromPackets r (r.handleInbound now packet) := by
  intro i n hn
  rcases neighbor?_handleInbound hn with hold | ⟨-, haccepted⟩
  · exact Or.inl hold
  · obtain ⟨s, -, -, hp⟩ := accept?_eq_some_iff.1 haccepted
    exact Or.inr ⟨packet.bytes, hp⟩

theorem learnsFromPackets_operate (r : Registry) (now : Nat) (o : Operation) :
    LearnsFromPackets r (r.operate now o).2 := by
  cases o with
  | request q => exact (@LearnsNothing.react r now (.request q) nofun).learnsFromPackets
  | setLink i state =>
    exact (@LearnsNothing.react r now (.setLink i state) nofun).learnsFromPackets
  | start i => exact (@LearnsNothing.react r now (.start i) nofun).learnsFromPackets
  | stop i => exact (@LearnsNothing.react r now (.stop i) nofun).learnsFromPackets
  | inbound packet => exact learnsFromPackets_handleInbound
  | transmit i => exact (@LearnsNothing.react r now (.transmit i) nofun).learnsFromPackets
  | fire i =>
    unfold operate
    dsimp only
    cases r.alarms.dueOf? now i with
    | some alarm => exact LearnsNothing.expire.learnsFromPackets
    | none => exact (LearnsNothing.refl r).learnsFromPackets
  | links use => exact (LearnsNothing.of_sessions rfl).learnsFromPackets
  | pass ms => exact (LearnsNothing.refl r).learnsFromPackets

end Registry

namespace Station

variable {settings : Settings} {incidents : List Incident} {i : IfIndex} {n : Neighbor}

/-- **Ports learn from packets**, whatever happens. -/
theorem learnsFromPackets_after (st : Station) (x : Incident) :
    st.registry.LearnsFromPackets (st.after x).registry := by
  cases x with
  | task task =>
    obtain ⟨-, surroundings, hdrift⟩ := drifts_step st task
    rw [after_task, hdrift]
    exact (Registry.LearnsNothing.of_keepsReceivers
      Registry.keepsReceivers_surround).learnsFromPackets
  | operation o => exact st.registry.learnsFromPackets_operate st.now o
  | expiry i => exact Registry.LearnsNothing.handleExpiry.learnsFromPackets
  | shutdown => exact Registry.LearnsNothing.shutdown.learnsFromPackets
  | packet deliver =>
    unfold after
    cases st.inbound.take? with
    | none => exact (Registry.LearnsNothing.refl _).learnsFromPackets
    | some item =>
      cases deliver with
      | true => exact Registry.learnsFromPackets_handleInbound
      | false => exact (Registry.LearnsNothing.refl _).learnsFromPackets
  | trigger deliver =>
    unfold after
    cases st.registry.triggers.take? with
    | none => exact (Registry.LearnsNothing.refl _).learnsFromPackets
    | some item =>
      have htaken : st.registry.LearnsNothing { st.registry with triggers := item.2 } :=
        .of_sessions rfl
      cases deliver with
      | true =>
        have hsent := @Registry.LearnsNothing.react { st.registry with triggers := item.2 }
          st.now (.transmit item.1) nofun
        exact (htaken.trans hsent).learnsFromPackets
      | false => exact htaken.learnsFromPackets
  | turn => exact (Registry.LearnsNothing.of_sessions rfl).learnsFromPackets
  | exit => exact (Registry.LearnsNothing.of_sessions rfl).learnsFromPackets
  | close => exact (Registry.LearnsNothing.of_sessions rfl).learnsFromPackets

/-- **Whatever a port remembers, an acceptable packet has said.** -/
theorem exists_packet_run
    (h : ((ofSettings settings).run incidents).registry.neighbor? i = some n) :
    ∃ packet, Neighbor.ofPacket packet = .ok n := by
  revert i n
  refine run_invariant (P := fun st => ∀ {i n}, st.registry.neighbor? i = some n →
    ∃ packet, Neighbor.ofPacket packet = .ok n) (fun st x ih i n hn => ?_) fun hn => ?_
  · rcases learnsFromPackets_after st x i n hn with hold | hpacket
    · exact ih hold
    · exact hpacket
  · cases hn

/-- The link info of a neighbour is what its frame says. -/
theorem info_of_run {s : Session}
    (hs : ((ofSettings settings).run incidents).registry.session? i = some s)
    (hn : s.receiver.neighbor = some n) : n.info = n.frame.linkInfo := by
  have hneighbor : ((ofSettings settings).run incidents).registry.neighbor? i = some n := by
    rw [Registry.neighbor?, Registry.receiver?_of_session? hs]
    exact hn
  obtain ⟨packet, hp⟩ := exists_packet_run hneighbor
  obtain ⟨unit, hannounced⟩ := Neighbor.ofPacket_eq_ok_iff.1 hp
  exact hannounced.info

/-! ### Queries -/

/-- **A query shows every captured port once.**  Whatever has happened to a station, and
however many rows are asked for at a time, the pages end, after as many as it takes for
the captured ports and after one if there are none.  Each is the page at its place, has
the rows that it says it has, no more than were asked for, and names the place of the next
one exactly if it is not the last.  Put together, they show the captured ports in their
order, each with its own name and setting and with the neighbour that it remembers, as
the frame of that neighbour says it.  Behind the last port and where nothing is asked for
the page is empty, and no place is too large for a word to name. -/
theorem query_complete (settings : Settings) (incidents : List Incident) (count : Nat)
    (hcount : 1 ≤ count) :
    let r := ((ofSettings settings).run incidents).registry
    let pages := r.pagesFrom count 0
    pages.length = max 1 ((r.upPorts.length + count - 1) / count) ∧
      (∀ k page, pages[k]? = some page →
        page = r.neighbors (k * count) count ∧
        page.count = page.entries.length ∧ page.count ≤ count ∧
        (page.next = 0 ↔ k + 1 = pages.length) ∧
        (page.next ≠ 0 → page.next = k * count + count ∧ page.count = count)) ∧
      (pages.flatMap NeighborPage.entries).map NeighborEntry.ifIndex = r.upPorts ∧
      r.upPorts.Nodup ∧
      (∀ entry ∈ pages.flatMap NeighborPage.entries,
        ∃ s, r.session? entry.ifIndex = some s ∧ entry.port = s.port.name ∧
          entry.ifIndex = s.port.ifIndex ∧ entry.enabled = s.enabled ∧
          entry.peer = s.receiver.neighbor.map fun n =>
            { chassis := n.frame.chassis.text
              port := n.frame.port.text
              hold := n.frame.ttlSecs
              info := n.frame.linkInfo }) ∧
      (∀ start size, r.upPorts.length ≤ start ∨ size = 0 → r.neighbors start size = {}) ∧
      ∀ start size : UInt64, r.upPorts.length ≤ Word.maximum →
        r.neighborsInWords start size = r.neighbors start.toNat size.toNat := by
  intro r pages
  have horder : r.InOrder (((ofSettings settings).launches incidents).map CaptureTask.ifIndex) :=
    inOrder_run settings incidents
  obtain ⟨ss, hshows⟩ := horder.exists_shows
  have hrows : pages.flatMap NeighborPage.entries = ss.map Session.entry :=
    hshows.flatMap_entries hcount 0
  refine ⟨Registry.length_pagesFrom hcount, fun k page hpage => ?_, ?_, horder.nodup_upPorts,
    fun entry hentry => ?_, fun start size => Registry.neighbors_of_le,
    fun start size hfits => Registry.neighborsInWords_eq hfits start size⟩
  · obtain ⟨heq, hlast⟩ := Registry.page_of_pagesFrom hcount hpage
    rw [Nat.zero_add] at heq
    obtain ⟨hrow, hsize⟩ := r.neighbors_count (k * count) count
    rw [← heq] at hrow hsize
    refine ⟨heq, hrow, hsize, hlast, fun hnext => ?_⟩
    rw [heq, Registry.neighbors_next] at hnext ⊢
    split_ifs at hnext ⊢ with hmore
    · exact ⟨rfl, hshows.count_of_lt hmore.2⟩
    · exact absurd rfl hnext
  · rw [hrows, List.map_map, hshows.upPorts]
    rfl
  · rw [hrows] at hentry
    obtain ⟨s, hs, rfl⟩ := List.mem_map.1 hentry
    have hsession := hshows.session s hs
    refine ⟨s, hsession, rfl, rfl, rfl, ?_⟩
    show s.receiver.neighbor.map Neighbor.peer = _
    cases hn : s.receiver.neighbor with
    | none => rfl
    | some n => rw [Option.map_some, Option.map_some, Neighbor.peer, info_of_run hsession hn]

/-- Three ports, started in another order than the one in which they were registered; the
first to be started hears a neighbour. -/
def trio : List Incident :=
  let add (i : IfIndex) (name : String) : Incident :=
    .operation (.request (.add { ifIndex := i, number := 1, name, mac := Mac.zero }))
  let up (i : IfIndex) : Incident := .operation (.request (.reportLink i .up))
  [add 1 "Ethernet0", add 2 "Ethernet4", add 3 "Ethernet8", up 2, up 1, up 3,
    .operation (.inbound
      { ifIndex := 2, bytes := Ethernet.build Receiver.writer.source Receiver.writtenUnit })]

/-- In pages of two, the rows of three ports take two pages. -/
theorem query_complete_trio :
    let r := ((ofSettings {}).run trio).registry
    1 ≤ 2 ∧ (r.pagesFrom 2 0).length = 2 ∧
      ((r.pagesFrom 2 0).flatMap NeighborPage.entries).map NeighborEntry.ifIndex = [2, 1, 3] ∧
      ∃ n, r.neighbor? 2 = some n ∧ n.frame.port.text = "e1" := by
  intro r
  have hup : r.upPorts = [2, 1, 3] := by decide +kernel
  obtain ⟨hlength, -, hports, -⟩ := query_complete {} trio 2 (by decide)
  refine ⟨by decide, ?_, hports.trans hup, Receiver.writer, by decide +kernel, by decide +kernel⟩
  change (r.pagesFrom 2 0).length = max 1 ((r.upPorts.length + 2 - 1) / 2) at hlength
  rw [hlength, hup]
  rfl

end Station
end Lldp
