import ReliableTransport.Proofs.Network.Preservation

/-!
# Delivery of the streams

An application is told of a front of what the other one sent, and of the end only when this front is
everything.  A connection that ends by an exchange with its peer has delivered and received all.
-/

namespace ReliableTransport

open Script

namespace Reports

variable {events : List AppEvent} {received : List Cargo}

theorem bytes_eq (reports : Reports events received) :
    events.flatMap AppEvent.bytes = content received := by
  obtain ⟨pieces, rfl, flatten_eq⟩ := reports
  have pieces_eq : (pieces.map AppEvent.data).flatMap AppEvent.bytes = pieces.flatten := by
    rw [List.flatMap_map, List.flatMap_def]
    simp [AppEvent.bytes]
  have last_eq : (if .fin ∈ received then [AppEvent.peerFinished] else []).flatMap AppEvent.bytes =
      [] := by
    split <;> rfl
  rw [List.flatMap_append, pieces_eq, last_eq, List.append_nil, flatten_eq]

theorem peerFinished_mem_iff (reports : Reports events received) :
    .peerFinished ∈ events ↔ .fin ∈ received := by
  obtain ⟨pieces, rfl, -⟩ := reports
  by_cases finished : .fin ∈ received
  · simp [finished]
  · simp [finished]

theorem exists_eq_append (reports : Reports events received) (finished : .fin ∈ received) :
    ∃ earlier, events = earlier ++ [.peerFinished] ∧ .peerFinished ∉ earlier := by
  obtain ⟨pieces, rfl, -⟩ := reports
  rw [if_pos finished]
  exact ⟨pieces.map .data, rfl, by simp⟩

end Reports

namespace Network
namespace Coherent

variable {network : Network} {ledgers : Side → Ledger}

theorem received_eq (coherent : network.Coherent ledgers) (side : Side) :
    (network.station side).received = content (ledgers side).received :=
  (coherent.follows side).reports.bytes_eq

theorem received_eq_script (coherent : network.Coherent ledgers) (side : Side)
    (finished : .fin ∈ (ledgers side).received) :
    (ledgers side).received = (ledgers side.other).script :=
  (coherent.valid side.other).eq_of_fin_mem (coherent.follows side).received_isPrefix finished

end Coherent

/-- An application is told of a front of the stream of the other one.  It is told of the end only
once, last, after the other application finished and when it was told of everything. -/
theorem Reachable.stream_in_order {network : Network} (reachable : network.Reachable)
    (short : network.Short) (side : Side) :
    (network.station side).received <+: (network.station side.other).taken ∧
      (.peerFinished ∈ (network.station side).events →
        (network.station side.other).closing = true ∧
        (network.station side).received = (network.station side.other).taken ∧
        ∃ earlier, (network.station side).events = earlier ++ [.peerFinished] ∧
          .peerFinished ∉ earlier) := by
  obtain ⟨ledgers, coherent⟩ := reachable.coherent short
  have reports := (coherent.follows side).reports
  have received_isPrefix := (coherent.follows side).received_isPrefix
  have taken_eq := (coherent.lawful side.other).taken_eq
  rw [coherent.received_eq, ← taken_eq]
  refine ⟨content_isPrefix received_isPrefix, fun told => ?_⟩
  have finished := reports.peerFinished_mem_iff.mp told
  refine ⟨?_, ?_, reports.exists_eq_append finished⟩
  · exact (coherent.lawful side.other).closing (received_isPrefix.subset finished)
  · rw [coherent.received_eq_script side finished]

/-- The stream of a short conversation whose sequence numbers wrap around. -/
theorem stream_in_order_farewell :
    ∃ network : Network, network.Reachable ∧ network.Short ∧
      (network.station .second).events = [.data [7, 8], .peerFinished] ∧
      (network.station .second).received = (network.station .first).taken := by
  have played : ∃ network : Network, network.Reachable ∧ network.Short ∧
      (network.station .second).events = [.data [7, 8], .peerFinished] := by
    refine
      ⟨_, ⟨narrow, narrow, ⟨4294967295⟩, ⟨7⟩, 5, handshake ++ farewell, rfl, rfl, rfl⟩, ?_, rfl⟩
    intro side
    cases side <;> decide
  obtain ⟨network, reachable, short, events_eq⟩ := played
  have told : .peerFinished ∈ (network.station .second).events := by
    rw [events_eq]
    decide
  exact ⟨network, reachable, short, events_eq,
    ((reachable.stream_in_order short .second).2 told).2.1⟩

/-- A connection that follows its peer is complete if it knows that its stream was received, and
received the FIN. -/
theorem Coherent.complete {network : Network} {ledgers : Side → Ledger} {side : Side}
    (coherent : network.Coherent ledgers) {after : Connection} {ledger' : Ledger}
    (follows : after.Follows (network.station side).heard ledger'
      (network.party ledgers side.other))
    (content_eq : content ledger'.script = content (ledgers side).script)
    (acked : content ledger'.acked = content ledger'.script)
    (finished : .fin ∈ ledger'.received) :
    (network.station side.other).received = (network.station side).taken ∧
      Station.received { network.station side with connection := after } =
        (network.station side.other).taken ∧
      .peerFinished ∈ Station.events { network.station side with connection := after } := by
  refine ⟨?_, ?_, ?_⟩
  · have known := content_isPrefix follows.acked_isPrefix
    have written := content_isPrefix (coherent.received_isPrefix side)
    rw [acked, content_eq] at known
    rw [coherent.received_eq, ← (coherent.lawful side).taken_eq]
    exact written.eq_of_length_le known.length_le
  · have all := (coherent.valid side.other).eq_of_fin_mem follows.received_isPrefix finished
    rw [← (coherent.lawful side.other).taken_eq, ← all]
    exact follows.reports.bytes_eq
  · exact follows.reports.peerFinished_mem_iff.mpr finished

end Network

theorem Connection.Follows.content_acked_of_onlyFinalFin {connection : Connection}
    {heard : List AppEvent} {ledger : Ledger} {peer : Party}
    (follows : connection.Follows heard ledger peer) (near : extent ledger.script < 2147483648)
    (only : connection.onlyFinalFin = true) :
    content ledger.acked = content ledger.script ∧ .fin ∈ ledger.received := by
  simp only [onlyFinalFin, Bool.and_eq_true, Bool.or_eq_true, decide_eq_true_eq] at only
  obtain ⟨waiting, finSeq_eq⟩ := only
  have admits := follows.admits
  obtain ⟨written, finished⟩ : .fin ∈ ledger.script ∧ .fin ∈ ledger.received := by
    obtain waiting | waiting := waiting
    · rw [waiting] at admits
      exact ⟨admits.1, admits.2.2.2⟩
    · rw [waiting] at admits
      exact ⟨admits.1, admits.2.2.2⟩
  have valid := follows.sends.valid
  have acked_isPrefix := follows.sends.acked_isPrefix
  have acked_le := extent_le_of_isPrefix acked_isPrefix
  rw [follows.sends.finSeq_eq, if_pos written, follows.sends.unacked_eq] at finSeq_eq
  have extent_eq := (SeqNum.advance_inj connection.isn (by omega) (by omega)).mp
    (Option.some.inj finSeq_eq)
  obtain ⟨front, script_eq, -⟩ := valid.eq_append_fin written
  have isFront : front <+: ledger.script := ⟨[.fin], script_eq.symm⟩
  -- equal positions are equal fronts, because no entry is empty
  have all_but_fin : front = ledger.acked := by
    refine valid.eq_of_extent_eq isFront acked_isPrefix ?_
    rw [← extent_eq, script_eq, extent_append]
    rfl
  refine ⟨?_, finished⟩
  rw [← all_but_fin, script_eq, content_append]
  simp [Cargo.payload]

namespace Network

/-- A connection that ends by a segment of its peer or by giving up on its last acknowledgment has
delivered its stream and received the other one completely. -/
theorem Reachable.complete_of_terminated {network after : Network}
    (reachable : network.Reachable) (short : after.Short) {side : Side} {move : Move}
    (done : network.step (.act side move) = .ok after)
    (graceful : (∃ number, move = .deliver number) ∨ move = .expire ∧ ∃ connection,
      (network.station side).connection.expire network.now = .ok (.ok (), connection))
    (running : (network.station side).connection.phase ≠ .terminated)
    (ended : (after.station side).connection.phase = .terminated) :
    (after.station side.other).received = (after.station side).taken ∧
      (after.station side).received = (after.station side.other).taken ∧
      .peerFinished ∈ (after.station side).events := by
  have before_short := short.of_step done
  obtain ⟨ledgers, coherent⟩ := reachable.coherent before_short
  obtain ⟨station, acted, rfl⟩ := exists_of_step_act done
  rw [station_setStation] at ended
  rw [station_setStation, station_setStation_other]
  rcases graceful with ⟨number, rfl⟩ | ⟨rfl, connection, expired⟩
  · simp only [Station.act] at acted
    split at acted
    · obtain rfl := Except.ok.inj acted
      exact absurd ended running
    · next raw found =>
        obtain ⟨connection, received, acted⟩ := Fault.exists_of_bind_eq_ok acted
        obtain rfl := Except.ok.inj acted
        have sent : raw ∈ (network.station side.other).sent :=
          List.mem_append_left _ (List.mem_of_getElem? found)
        rcases coherent.receive before_short sent network.now with
            failed | ⟨after, ledger', taken, turn⟩
        · rw [received] at failed
          cases failed
        · rw [received] at taken
          obtain rfl := Except.ok.inj taken
          rcases turn.ended ended with gone | ⟨-, acked_eq, finished⟩
          · exact absurd gone running
          · exact coherent.complete turn.follows turn.script_eq.1 (by rw [acked_eq]) finished
  · simp only [Station.act, expired] at acted
    obtain rfl := Except.ok.inj acted
    have follows := coherent.follows side
    rcases Connection.expire_cases expired with
        ⟨-, same, -⟩ | ⟨result_eq, after_eq⟩ | ⟨segments, roundTrip, -, -, after_eq⟩
    · rw [same] at ended
      exact absurd ended running
    · have only : (network.station side).connection.onlyFinalFin = true := by
        by_contra more
        rw [if_neg more] at result_eq
        cases result_eq
      obtain ⟨content_eq, finished⟩ :=
        follows.content_acked_of_onlyFinalFin (coherent.near before_short side) only
      exact coherent.complete (follows.expire expired).follows rfl content_eq finished
    · rw [after_eq] at ended
      exact absurd ended running

/-- The end of a short conversation at its first end. -/
theorem complete_of_terminated_farewell :
    ∃ network after : Network, network.Reachable ∧ after.Short ∧
      network.step (.act .first (.deliver 4)) = .ok after ∧
      (network.station .first).connection.phase = .finWait2 ∧
      (after.station .first).connection.phase = .terminated ∧
      (after.station .second).received = (after.station .first).taken := by
  let steps := handshake ++ farewell ++
    [.act .second .close, .act .second .emit, .act .second .emit, .act .second .emit,
      .act .second .emit, .act .first (.deliver 3)]
  have played : ∃ network after : Network, network.Reachable ∧ after.Short ∧
      network.step (.act .first (.deliver 4)) = .ok after ∧
      (network.station .first).connection.phase = .finWait2 ∧
      (after.station .first).connection.phase = .terminated := by
    refine ⟨_, _, ⟨narrow, narrow, ⟨4294967295⟩, ⟨7⟩, 5, steps, rfl, rfl, rfl⟩, ?_, rfl, rfl, rfl⟩
    intro side
    cases side <;> decide
  obtain ⟨network, after, reachable, short, done, waiting, ended⟩ := played
  exact ⟨network, after, reachable, short, done, waiting, ended,
    (reachable.complete_of_terminated short done (Or.inl ⟨4, rfl⟩) (by rw [waiting]; decide)
      ended).1⟩

end Network
end ReliableTransport
