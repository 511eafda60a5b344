import ReliableTransport.Proofs.Network.Preservation
import ReliableTransport.Proofs.Station.Basic

/-!
# The send space towards any peer

Whatever arrives, the outstanding segments are contiguous, the oldest one contains the oldest
unacknowledged position, and the youngest one ends at the next position to send.  No more is
outstanding than the own bound on the window allows, and a FIN behind it.
-/

namespace ReliableTransport

open Script

namespace Connection

/-- The counters of the sending side and the outstanding segments agree. -/
structure SendSpace (connection : Connection) : Prop where
  /-- The own bound on the window is kept, apart from a FIN behind it. -/
  inFlight_le : connection.inFlight ≤ connection.config.maxSendWindow.toNat + 1
  /-- Something is outstanding exactly if some position is unacknowledged. -/
  empty_iff : connection.flight.segments = [] ↔ connection.inFlight = 0
  /-- Each segment starts where the previous one ends. -/
  chain : connection.flight.segments.IsChain fun segment next => segment.finish = next.seq
  /-- The youngest segment ends at the next position. -/
  last : ∀ segment, connection.flight.segments.getLast? = some segment →
    segment.finish = connection.sendNext
  /-- The oldest segment contains the oldest unacknowledged position. -/
  first : ∀ segment, connection.flight.segments.head? = some segment →
    connection.sendUnacked.since segment.seq < segment.length
  /-- Each segment reads back with its position and occupies its sequence numbers. -/
  encoded : ∀ segment ∈ connection.flight.segments, 0 < segment.length ∧
    ∃ decoded, Segment.decode segment.raw = .ok decoded ∧ decoded.header.seq = segment.seq ∧
      decoded.span = .ok segment.length

namespace Writes

variable {connection : Connection} {script acked : List Cargo} {settled : Nat}

theorem counters_agree (writes : connection.Writes script acked settled)
    (valid : connection.config.Valid) (running : connection.phase ≠ .terminated) :
    connection.SendSpace := by
  obtain ⟨rest, script_eq, carries⟩ := writes.carries running
  have extent_eq : extent script = extent acked + extent rest := by
    rw [script_eq, extent_append]
  have acked_le := writes.acked_le
  have settled_le := writes.settled_le
  refine ⟨?_, ?_, carries.isChain, ?_, ?_, ?_⟩
  · have reach_le := writes.reach_le
    have window_ne : connection.config.maxSendWindow.toNat ≠ 0 := by
      intro zero
      exact ((Config.valid_iff _).mp valid).2.2.2.1 (UInt16.toNat_inj.mp zero)
    rw [writes.inFlight_eq]
    simp only [reach] at reach_le
    split at reach_le <;> omega
  · have all_acked := writes.acked_eq_iff
    rw [carries.nil_iff, writes.inFlight_eq]
    constructor
    · rintro rfl
      rw [all_acked.mp (by simpa using script_eq.symm), Nat.sub_self]
    · intro none
      have acked_eq := all_acked.mpr (by omega)
      simpa [acked_eq] using script_eq
  · intro segment isLast
    rw [writes.next_eq, extent_eq]
    exact carries.finish_getLast? isLast
  · intro segment isFirst
    cases rest with
    | nil => simp [carries.nil_iff.mpr rfl] at isFirst
    | cons cargo others =>
        have within := writes.within cargo others script_eq
        have near := writes.length_le (show cargo ∈ script by simp [script_eq])
        have length_eq : segment.length = cargo.length := by
          revert isFirst
          generalize connection.flight.segments = segments at carries
          cases carries with
          | cons head tail =>
              intro isFirst
              obtain rfl := Option.some.inj isFirst
              exact head.length_eq
        rw [writes.unacked_eq, carries.seq_head? isFirst, length_eq,
          SeqNum.since_advance _ acked_le (by omega)]
        omega
  · intro segment mem
    obtain ⟨start, cargo, written, carried⟩ := carries.exists_of_mem mem
    have written : cargo ∈ script := script_eq ▸ List.mem_append_right acked written
    have short : cargo.payload.length < 4294967294 := by
      have length_le := writes.length_le written
      have payload_le : cargo.payload.length ≤ cargo.length := by
        cases cargo <;> simp [Cargo.payload]
      omega
    obtain ⟨ack, raw_eq⟩ := carried.raw_eq
    rw [carried.length_eq, carried.seq_eq, raw_eq]
    exact ⟨writes.valid.length_pos written, _, Cargo.decode_encode _ _ _ _, rfl,
      Cargo.span_eq short⟩

end Writes
end Connection

namespace Station

/-- The counters of a connection that is not over agree with its outstanding segments, whatever its
peer does. -/
theorem Arises.sendSpace {config : Config} {isn : SeqNum} {station : Station}
    (arises : Arises config isn station) (valid : config.Valid)
    (running : station.connection.phase ≠ .terminated) :
    station.connection.config = config ∧ station.connection.SendSpace := by
  obtain ⟨ledger, settled, sound⟩ := arises.sound
  have config_eq : station.connection.config = config := sound.connection.config_eq
  exact ⟨config_eq, sound.connection.writes.counters_agree (config_eq ▸ valid) running⟩

/-- The peer opens the connection, and forges an acknowledgment inside of the first of two
chunks. -/
theorem sendSpace_split :
    ∃ station : Station, Arises Network.narrow ⟨4294967295⟩ station ∧
      station.connection.flight.segments.map (fun segment => (segment.seq, segment.length)) =
        [(⟨0⟩, 2), (⟨2⟩, 1)] ∧
      station.connection.sendUnacked = ⟨1⟩ ∧ station.connection.SendSpace := by
  let history : List (Occurrence × Nat) :=
    [(.operate .listen, 0), (.operate (.receive ((Cargo.syn false).encode ⟨7⟩ ⟨0⟩ 4)), 1),
      (.operate (.receive (Segment.acknowledgment ⟨8⟩ ⟨0⟩ 4)), 2),
      (.operate (.send [7, 8, 9]), 3), (.emit, 3), (.operate (.send [9]), 4),
      (.operate (.receive (Segment.acknowledgment ⟨8⟩ ⟨1⟩ 1)), 5)]
  have lived : ∃ station : Station, Arises Network.narrow ⟨4294967295⟩ station ∧
      station.connection.phase = .established ∧
      station.connection.flight.segments.map (fun segment => (segment.seq, segment.length)) =
        [(⟨0⟩, 2), (⟨2⟩, 1)] ∧
      station.connection.sendUnacked = ⟨1⟩ :=
    ⟨_, ⟨_, history, rfl, rfl⟩, rfl, rfl, rfl⟩
  obtain ⟨station, arises, phase_eq, segments_eq, unacked_eq⟩ := lived
  have running : station.connection.phase ≠ .terminated := by
    rw [phase_eq]
    decide
  exact ⟨station, arises, segments_eq, unacked_eq, (arises.sendSpace rfl running).2⟩

end Station
end ReliableTransport
