import ReliableTransport.Proofs.Network.Preservation

/-!
# Flow control between the two ends

The window that an end grants is never exceeded, whatever old segments and advertisements arrive,
and acknowledgment numbers are boundaries of segments.  So no data is cut off or lost at the edge of
a window, and the outstanding segments cover exactly the unacknowledged positions.
-/

namespace ReliableTransport

open Script

/-- A payload is old, or all of it lies inside the window and is laid there. -/
def ReceiveWindow.Welcomes (window : ReceiveWindow) (seq : SeqNum) (payload : Bytes) : Prop :=
  window.receive seq payload = .ok (.stale, window) ∨
    ∃ offset delivered rest, seq = window.next.advance offset ∧
      offset + payload.length ≤ window.capacity ∧
      window.accept offset payload = (.accepted delivered, rest) ∧
      window.receive seq payload = .ok (.accepted delivered, rest)

namespace Network
namespace Coherent

variable {network : Network} {ledgers : Side → Ledger}

/-- Data of the other end is old or fits in the window. -/
theorem welcomes (coherent : network.Coherent ledgers) (short : network.Short) {side : Side}
    {raw : Bytes} {segment : Segment} (sent : raw ∈ (network.station side.other).sent)
    (decoded : Segment.decode raw = .ok segment) (payload_ne : segment.payload ≠ [])
    (received_ne : (ledgers side).received ≠ []) :
    (network.station side).connection.window.Welcomes segment.header.seq segment.payload := by
  have fits := coherent.fits short side
  obtain ⟨front, back, split, seq_eq⟩ :=
    ((coherent.lawful side.other).speaks raw sent).data decoded payload_ne
  have receives := (coherent.follows side).receives received_ne
  rw [seq_eq]
  obtain ⟨-, stale⟩ | ⟨offset, position, inside, accepted⟩ :=
    receives.receive_eq fits.valid fits.near fits.within split
  · exact Or.inl stale
  · refine Or.inr ⟨offset, _, _, ?_, inside, rfl, accepted⟩
    rw [receives.next_eq, SeqNum.advance_advance, position]
    rfl

theorem not_after_sendNext (coherent : network.Coherent ledgers) (short : network.Short)
    {side : Side} {raw : Bytes} {segment : Segment}
    (sent : raw ∈ (network.station side.other).sent) (decoded : Segment.decode raw = .ok segment)
    (acks : segment.header.flags.ack) :
    ¬ segment.header.ack.After (network.station side).connection.sendNext := by
  obtain ⟨known, -, isFront, ack_eq⟩ :=
    ((coherent.lawful side.other).speaks raw sent).acknowledges decoded acks
  have near := coherent.near short side
  have known_le := extent_le_of_isPrefix (isFront.trans (coherent.received_isPrefix side))
  rw [Side.other_other] at ack_eq
  rw [ack_eq, (coherent.follows side).sends.next_eq]
  have after_iff := SeqNum.after_advance_iff (network.station side).connection.isn
    (show extent (ledgers side).script < extent known + 2147483648 by omega) (by omega)
  exact mt after_iff.mp (by omega)

theorem exists_segment_of_ack (coherent : network.Coherent ledgers) (short : network.Short)
    {side : Side} {raw : Bytes} {segment : Segment} (sent : raw ∈ (network.station side).sent)
    (decoded : Segment.decode raw = .ok segment) (acks : segment.header.flags.ack) :
    ∃ raw' ∈ (network.station side.other).sent, ∃ segment' length,
      Segment.decode raw' = .ok segment' ∧ segment'.span = .ok length ∧ 0 < length ∧
        segment.header.ack = segment'.header.seq.advance length := by
  obtain ⟨known, known_ne, isFront, ack_eq⟩ :=
    ((coherent.lawful side).speaks raw sent).acknowledges decoded acks
  rcases List.eq_nil_or_concat known with rfl | ⟨front, cargo, rfl⟩
  · exact absurd rfl known_ne
  · obtain ⟨back, script_eq⟩ := isFront.trans (coherent.follows side).received_isPrefix
    have split : (ledgers side.other).script = front ++ cargo :: back := by
      rw [show (ledgers side.other).script = _ from script_eq.symm]
      simp
    obtain ⟨ack, mem⟩ := (coherent.lawful side.other).written front cargo back split
    have valid := coherent.valid side.other
    have near := coherent.near short side.other
    have small : cargo.payload.length < 4294967294 := by
      have payload_le : cargo.payload.length ≤ cargo.length := by
        cases cargo <;> simp [Cargo.payload]
      rw [split, extent_append, extent_cons] at near
      omega
    refine ⟨_, mem, _, cargo.length, Cargo.decode_encode _ _ _ _, Cargo.span_eq small,
      valid.length_pos (by simp [split]), ?_⟩
    rw [ack_eq]
    simp only [Cargo.segment, SeqNum.advance_advance]
    simp
    rfl

theorem covers (coherent : network.Coherent ledgers) (short : network.Short) (side : Side)
    (running : (network.station side).connection.phase ≠ .terminated) :
    (network.station side).connection.flight.Covers (network.station side).connection.sendUnacked
      (network.station side).connection.sendNext := by
  have sends := (coherent.follows side).sends
  have near := coherent.near short side
  obtain ⟨rest, script_eq, carries⟩ := sends.carries running
  rw [sends.unacked_eq, sends.next_eq]
  rw [script_eq] at near ⊢
  rw [extent_append] at near ⊢
  refine carries.covers (fun cargo mem => ?_) (by omega)
  exact sends.valid.length_pos (by rw [script_eq]; exact List.mem_append_right _ mem)

end Coherent

/-- No data is cut off or lost at the edge of a window, no acknowledgment runs ahead, each one is
the end of a segment, and the outstanding segments cover exactly the unacknowledged positions. -/
theorem Reachable.flow_controlled {network : Network} (reachable : network.Reachable)
    (short : network.Short) (side : Side) :
    (∀ raw ∈ (network.station side.other).sent, ∀ segment, Segment.decode raw = .ok segment →
      (segment.payload ≠ [] →
        (network.station side).connection.phase.isSynchronized ∨
            (network.station side).connection.phase = .synReceived →
          (network.station side).connection.window.Welcomes segment.header.seq segment.payload) ∧
      (segment.header.flags.ack →
        ¬ segment.header.ack.After (network.station side).connection.sendNext)) ∧
    (∀ raw ∈ (network.station side).sent, ∀ segment, Segment.decode raw = .ok segment →
      segment.header.flags.ack →
        ∃ raw' ∈ (network.station side.other).sent, ∃ segment' length,
          Segment.decode raw' = .ok segment' ∧ segment'.span = .ok length ∧ 0 < length ∧
            segment.header.ack = segment'.header.seq.advance length) ∧
    ((network.station side).connection.phase ≠ .terminated →
      (network.station side).connection.flight.Covers
        (network.station side).connection.sendUnacked
        (network.station side).connection.sendNext) := by
  obtain ⟨ledgers, coherent⟩ := reachable.coherent short
  refine ⟨fun raw sent segment decoded => ⟨fun payload_ne agreed => ?_, ?_⟩, ?_, ?_⟩
  · have admits := (coherent.follows side).admits
    refine coherent.welcomes short sent decoded payload_ne ?_
    rcases agreed with synchronized | answered
    · exact admits.received_ne synchronized
    · rw [answered] at admits
      exact admits.2.1
  · exact coherent.not_after_sendNext short sent decoded
  · intro raw sent segment decoded acks
    exact coherent.exists_segment_of_ack short sent decoded acks
  · exact coherent.covers short side

/-- Two chunks on their way, of which the later one arrives first. -/
theorem flow_controlled_overtaking :
    ∃ network : Network, network.Reachable ∧ network.Short ∧
      (network.station .first).connection.flight.segments.length = 2 ∧
      (network.station .first).connection.flight.Covers
        (network.station .first).connection.sendUnacked
        (network.station .first).connection.sendNext ∧
      ∃ raw ∈ (network.station .first).sent, ∃ segment, Segment.decode raw = .ok segment ∧
        segment.payload = [9] ∧
        (network.station .second).connection.window.Welcomes segment.header.seq
          segment.payload := by
  let steps := handshake ++ [.act .first (.send [7, 8]), .act .first (.send [9])]
  have played : ∃ network : Network, network.Reachable ∧ network.Short ∧
      (network.station .first).connection.phase = .established ∧
      (network.station .second).connection.phase = .established ∧
      (network.station .first).connection.flight.segments.length = 2 ∧
      ∃ raw ∈ (network.station .first).sent, ∃ segment, Segment.decode raw = .ok segment ∧
        segment.payload = [9] := by
    refine ⟨_, ⟨narrow, narrow, ⟨4294967295⟩, ⟨7⟩, 5, steps, rfl, rfl, rfl⟩, ?_, rfl, rfl, rfl,
      (Cargo.data [9]).encode ⟨2⟩ ⟨8⟩ 4, by decide, _, rfl, rfl⟩
    intro side
    cases side <;> decide
  obtain ⟨network, reachable, short, first_open, second_open, length_eq, raw, sent, segment,
    decoded, payload_eq⟩ := played
  refine ⟨network, reachable, short, length_eq, ?_, raw, sent, segment, decoded, payload_eq, ?_⟩
  · exact (reachable.flow_controlled short .first).2.2 (by rw [first_open]; decide)
  · exact ((reachable.flow_controlled short .second).1 raw sent segment decoded).1
      (by rw [payload_eq]; decide) (Or.inl (by rw [second_open]; rfl))

end Network
end ReliableTransport
