import ReliableTransport.Proofs.Network.Delivery
import ReliableTransport.Proofs.Network.Estimates

/-!
# Recovery by one clean round

When everything that one end resends arrives in order, and so do the answers, nothing remains
outstanding, whatever was lost before.  The estimates of the answering end are the only obstacle,
and only for times beyond any clock.
-/

namespace ReliableTransport

open Script

namespace Network
namespace Coherent

variable {network : Network} {ledgers : Side → Ledger} {side : Side}

/-- A synchronized end is not about to end by what the other one knows, unless that one waits for
the other FIN too. -/
theorem awaits (coherent : network.Coherent ledgers)
    (sending : (network.station side).connection.phase ∈
      [Phase.established, .finWait1, .closeWait, .lastAck])
    (synchronized : (network.station side.other).connection.phase.isSynchronized) :
    (network.station side.other).connection.Awaits (ledgers side.other)
      (ledgers side).received := by
  refine ⟨synchronized, fun known_fin finished => ?_⟩
  have admits := (coherent.follows side).admits
  have written : .fin ∈ (ledgers side).script :=
    (coherent.received_isPrefix side).subset finished
  have other_written : .fin ∈ (ledgers side.other).script :=
    (coherent.follows side).received_isPrefix.subset known_fin
  have last : (network.station side).connection.phase = .lastAck := by
    simp only [List.mem_cons, List.not_mem_nil, or_false] at sending
    rcases sending with phase_eq | phase_eq | phase_eq | phase_eq
    · rw [phase_eq] at admits
      exact absurd written admits.2.1
    · rw [phase_eq] at admits
      exact absurd known_fin admits.2.2.2
    · rw [phase_eq] at admits
      exact absurd written admits.2.1
    · exact phase_eq
  exact (coherent.follows side.other).admits.acked_ne synchronized other_written finished
    (coherent.last side last finished)

end Coherent

/-- One clean round recovers from any loss, at whatever times.  Only the estimates of the answering
end can fail, and only for immoderate times. -/
theorem Reachable.recovers {network : Network} (reachable : network.Reachable)
    (short : network.Short) {side : Side} {resent : Connection}
    (sending : (network.station side).connection.phase ∈
      [Phase.established, .finWait1, .closeWait, .lastAck])
    (synchronized : (network.station side.other).connection.phase.isSynchronized)
    (expired : (network.station side).connection.expire network.now = .ok (.ok (), resent))
    (running : resent.phase ≠ .terminated) :
    ∃ burst, resent.outbox = (network.station side).connection.outbox ++ burst ∧
      ∀ arrivals, arrivals.map Prod.fst = burst →
        ((network.station side.other).connection.receiveAll arrivals = .error .duration ∧
            ¬ network.Moderate side.other arrivals) ∨
          ∃ answering answers,
            (network.station side.other).connection.receiveAll arrivals = .ok answering ∧
            answering.outbox = (network.station side.other).connection.outbox ++ answers ∧
            ∀ returns, returns.map Prod.fst = answers → ∃ settled,
              resent.receiveAll returns = .ok settled ∧ settled.flight.isEmpty ∧
                settled.sendUnacked = settled.sendNext ∧
                answering.recvNext = settled.sendNext ∧
                Station.received { network.station side.other with connection := answering } =
                  (network.station side).taken := by
  obtain ⟨ledgers, coherent⟩ := reachable.coherent short
  have follows := coherent.follows side
  have open_phases : ∀ phase ∈ [Phase.established, .finWait1, .closeWait, .lastAck],
      phase.isSynchronized := by
    decide
  have agreed := open_phases _ sending
  obtain ⟨rest, script_eq, outbox_eq, follows', resent', isn_eq⟩ :=
    follows.resend agreed expired running
  refine ⟨_, outbox_eq, fun arrivals burst => ?_⟩
  have other_follows := coherent.follows side.other
  have fits := coherent.fits short side.other
  have received_isPrefix := coherent.received_isPrefix side.other
  rw [Side.other_other] at other_follows fits received_isPrefix
  have here : (ledgers side).acked <+: (ledgers side.other).received :=
    coherent.acked_isPrefix side
  obtain failed | ⟨answering, ledger', answers, done, answering_follows, continues, all,
      answers_eq, acknowledge, final⟩ :=
    other_follows.answerAll fits (coherent.near short side.other) received_isPrefix
      (follows.admits.received_ne agreed) (fun _ => coherent.awaits sending synchronized)
      script_eq here burst
  · exact Or.inl ⟨failed, fun moderate => reachable.receiveAll_ne_error short moderate failed⟩
  refine Or.inr ⟨answering, answers, done, answers_eq, fun returns returns_eq => ?_⟩
  have all : ledger'.received = (ledgers side).script := all
  have window_eq : (answering.party ledger').window =
      (network.station side.other).connection.config.receiveWindow := continues.window_eq
  have honest : Connection.AcknowledgeFronts resent.isn (answering.party ledger').window
      (ledgers side).script (returns.map Prod.fst) := by
    rw [isn_eq, window_eq, returns_eq]
    exact acknowledge
  obtain ⟨settled, acked, settled_eq, settled_follows, settled_resent, settled_isn, later, last⟩ :=
    (follows'.mono continues).settleAll (coherent.near short side) resent' all honest
  have all_acked : acked = (ledgers side).script := by
    by_cases more : rest = []
    · rw [more, List.append_nil] at script_eq
      have acked_isPrefix : acked <+: (ledgers side).script := settled_follows.sends.acked_isPrefix
      rw [script_eq] at acked_isPrefix ⊢
      exact acked_isPrefix.eq_of_length_le later.length_le
    · obtain ⟨seq, mem⟩ := final more
      rw [← returns_eq, ← window_eq] at mem
      exact last seq (by rw [isn_eq]; exact mem)
  have next_eq : settled.sendNext = settled.isn.advance (extent (ledgers side).script) :=
    settled_follows.sends.next_eq
  refine ⟨settled, settled_eq, settled_follows.flight_isEmpty settled_resent all_acked, ?_, ?_, ?_⟩
  · rw [next_eq, settled_follows.sends.unacked_eq, all_acked]
  · have received_ne : ledger'.received ≠ [] := by
      rw [all]
      exact follows.admits.script_ne agreed
    rw [answering_follows.recvNext_eq received_ne, next_eq, settled_isn, isn_eq, all]
    rfl
  · rw [← (coherent.lawful side).taken_eq, ← all]
    exact answering_follows.reports.bytes_eq

/-- Both chunks of a stream and its FIN are lost, and recovered by one round. -/
theorem recovers_lost_stream :
    ∃ (network : Network) (resent : Connection) (burst : List Bytes),
      network.Reachable ∧ network.Short ∧
      (network.station .first).connection.phase = .finWait1 ∧
      (network.station .second).connection.phase = .established ∧
      (network.station .first).connection.expire network.now = .ok (.ok (), resent) ∧
      resent.outbox = (network.station .first).connection.outbox ++ burst ∧ burst.length = 3 ∧
      ∀ arrivals, arrivals.map Prod.fst = burst →
        (∀ arrival ∈ arrivals, arrival.2 ≤ Duration.second) →
          ∃ answering, (network.station .second).connection.receiveAll arrivals = .ok answering ∧
            Station.received { network.station .second with connection := answering } =
              [7, 8, 9] := by
  let steps := handshake ++
    [.act .first (.send [7, 8, 9]), .act .first (.send [9]), .act .first .close]
  have played : ∃ (network : Network) (resent : Connection), network.Reachable ∧ network.Short ∧
      (network.station .first).connection.phase = .finWait1 ∧
      (network.station .second).connection.phase = .established ∧
      (network.station .first).connection.expire network.now = .ok (.ok (), resent) ∧
      resent.phase = .finWait1 ∧
      resent.outbox.length = (network.station .first).connection.outbox.length + 3 ∧
      (network.station .first).taken = [7, 8, 9] ∧ network.now = 5 ∧
      (network.station .second).connection.config = narrow := by
    refine ⟨_, _, ⟨narrow, narrow, ⟨4294967295⟩, ⟨7⟩, 5, steps, rfl, rfl, rfl⟩, ?_, rfl, rfl, rfl,
      rfl, rfl, rfl, rfl, rfl⟩
    intro side
    cases side <;> decide
  obtain ⟨network, resent, reachable, short, closing, open_eq, expired, waiting, length_eq,
    taken_eq, now_eq, config_eq⟩ := played
  obtain ⟨burst, outbox_eq, recovers⟩ := reachable.recovers short (by rw [closing]; decide)
    (by rw [Side.other, open_eq]; rfl) expired (by rw [waiting]; decide)
  refine ⟨network, resent, burst, reachable, short, closing, open_eq, expired, outbox_eq, ?_,
    fun arrivals arrivals_eq times_le => ?_⟩
  · rw [outbox_eq, List.length_append] at length_eq
    omega
  have moderate : network.Moderate .second arrivals := by
    refine ⟨?_, ?_, fun arrival mem => (times_le arrival mem).trans (by decide)⟩
    · rw [now_eq]
      decide
    · rw [config_eq]
      decide
  rcases recovers arrivals arrivals_eq with ⟨-, immoderate⟩ | ⟨answering, answers, done, -, settles⟩
  · exact absurd moderate immoderate
  · obtain ⟨settled, -, -, -, -, received_eq⟩ :=
      settles (answers.map (·, 0)) (by rw [List.map_map]; exact List.map_id answers)
    exact ⟨answering, done, received_eq.trans taken_eq⟩

/-- A clock granularity at the end of the range of times. -/
def coarse : Config := { narrow with clockGranularity := Duration.limit - 1 }

/-- With a coarse clock, which no rule forbids, an open end does not take what its peer resends: the
first nonzero sample of a round trip leaves the range of times. -/
theorem not_recovers_coarse :
    ∃ (network : Network) (resent : Connection) (burst : List Bytes),
      network.Reachable ∧ network.Short ∧
      (network.station .first).connection.phase = .established ∧
      ¬ (network.station .first).connection.flight.isEmpty ∧
      (network.station .second).connection.phase = .established ∧
      (network.station .first).connection.expire network.now = .ok (.ok (), resent) ∧
      resent.phase = .established ∧
      resent.outbox = (network.station .first).connection.outbox ++ burst ∧
      (network.station .second).connection.receiveAll (burst.map (·, network.now)) =
        .error .duration := by
  let steps := handshake ++
    [.act .second (.send [5]), .act .second .emit, .act .first (.deliver 1),
      .act .first (.send [7]), .elapse Duration.second]
  refine ⟨_, _, [(Cargo.data [7]).encode ⟨0⟩ ⟨9⟩ 4],
    ⟨narrow, coarse, ⟨4294967295⟩, ⟨7⟩, 5, steps, rfl, rfl, rfl⟩, ?_, rfl, by decide, rfl, rfl, rfl,
    rfl, rfl⟩
  intro side
  cases side <;> decide

end Network
end ReliableTransport
