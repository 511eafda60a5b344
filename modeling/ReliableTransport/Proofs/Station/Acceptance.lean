import ReliableTransport.Proofs.FlightOrder
import ReliableTransport.Proofs.Station.Answering

/-!
# The acknowledgments that are accepted

Two comparisons in half of the sequence space decide about an acknowledgment.  Together they accept
the positions behind the oldest unacknowledged one, up to the next one to be sent, and no other of
the whole space, because never more than a small part of it is in flight.
-/

namespace ReliableTransport

open Fault Script

namespace Connection

variable {connection after : Connection} {background : Background} {ledger : Ledger}
  {script acked : List Cargo} {settled now : Nat} {ack : SeqNum} {advertised : UInt16}
  {segment : Segment}

theorem Writes.spans (writes : connection.Writes script acked settled) :
    Flight.Spans connection.sendUnacked connection.inFlight connection.flight.segments := by
  have extent_le := writes.extent_le
  have near : connection.inFlight < 2147483648 := by
    rw [writes.inFlight_eq]
    omega
  by_cases past : connection.phase = .terminated
  · rw [writes.cleared past]
    exact ⟨near, by simp, .nil⟩
  obtain ⟨rest, script_eq, carries⟩ := writes.carries past
  have acked_le := writes.acked_le
  have settled_le := writes.settled_le
  have script_extent : extent script = extent acked + extent rest := by
    rw [script_eq, extent_append]
  have first : ∀ segment, connection.flight.segments.head? = some segment →
      segment.seq.aheadOf connection.sendUnacked = (extent acked : Int) - settled ∧
        0 < (extent acked : Int) - settled + segment.length := by
    intro segment isFirst
    generalize connection.flight.segments = segments at carries isFirst
    cases carries with
    | nil => cases isFirst
    | @cons _ head _ cargo others carriesHead _ =>
        obtain rfl := Option.some.inj isFirst
        have within := writes.within cargo others script_eq
        have written : cargo ∈ script := by simp [script_eq]
        have length_le := writes.length_le written
        rw [writes.unacked_eq, carriesHead.seq_eq, carriesHead.length_eq,
          SeqNum.aheadOf_advance _ (by omega) (by omega)]
        exact ⟨rfl, by omega⟩
  refine Flight.Spans.of_isChain near carries.isChain (fun segment mem => ?_) first ?_
  · obtain ⟨start, cargo, written, holds⟩ := carries.exists_of_mem mem
    rw [holds.length_eq]
    exact writes.valid.length_pos (by rw [script_eq]; exact List.mem_append_right _ written)
  · rw [carries.sum_length, writes.inFlight_eq]
    omega

/-- A position is in flight if it is behind the oldest unacknowledged one and not behind the next
one to be sent. -/
def AwaitsAck (connection : Connection) (ack : SeqNum) : Prop :=
  1 ≤ ack.since connection.sendUnacked ∧ ack.since connection.sendUnacked ≤ connection.inFlight

instance (connection : Connection) (ack : SeqNum) : Decidable (connection.AwaitsAck ack) :=
  inferInstanceAs (Decidable (_ ∧ _))

/-- The outstanding segments that end at or before a position in flight. -/
def upTo (connection : Connection) (ack : SeqNum) : List Outstanding :=
  connection.flight.segments.filter fun segment =>
    segment.finish.since connection.sendUnacked ≤ ack.since connection.sendUnacked

/-- The outstanding segments that end behind a position in flight. -/
def beyond (connection : Connection) (ack : SeqNum) : List Outstanding :=
  connection.flight.segments.filter fun segment =>
    ack.since connection.sendUnacked < segment.finish.since connection.sendUnacked

/-- What an acknowledgment and its window change on the sending side. -/
structure Accepts (before : Connection) (ack : SeqNum) (advertised : UInt16) (now : Nat)
    (after : Connection) : Prop where
  /-- A position in flight becomes the oldest unacknowledged one, and the segments up to it are
  removed and measured. -/
  awaited : before.AwaitsAck ack →
    after.sendUnacked = ack ∧ after.flight.segments = before.beyond ack ∧
      (Flight.samples (before.upTo ack) now).foldlM RoundTrip.observe before.roundTrip =
        .ok after.roundTrip
  /-- Any other position changes nothing there. -/
  unawaited : ¬ before.AwaitsAck ack →
    after.sendUnacked = before.sendUnacked ∧ after.flight = before.flight ∧
      after.roundTrip = before.roundTrip
  /-- The window is taken unless the position lies ahead of the next one to be sent. -/
  window_eq : after.sendWindow =
    if before.sendNext.since ack < 2147483648 then before.granted advertised else before.sendWindow

theorem Writes.aheadOf_of_awaits (writes : connection.Writes script acked settled)
    (awaits : connection.AwaitsAck ack) :
    ack.aheadOf connection.sendUnacked = ack.since connection.sendUnacked := by
  have near := writes.spans.near
  obtain ⟨-, le⟩ := awaits
  rw [SeqNum.aheadOf_eq, if_pos (by omega)]

theorem Writes.aheadOf_finish (writes : connection.Writes script acked settled)
    {segment : Outstanding} (mem : segment ∈ connection.flight.segments) :
    segment.finish.aheadOf connection.sendUnacked =
      segment.finish.since connection.sendUnacked := by
  have within := writes.spans.within segment mem
  rw [SeqNum.since_of_aheadOf_nonneg (by omega)]
  omega

theorem Writes.acknowledge_eq (writes : connection.Writes script acked settled)
    (awaits : connection.AwaitsAck ack) (now : Nat) (estimate : RoundTrip) :
    connection.flight.acknowledge ack now estimate =
      ((Flight.samples (connection.upTo ack) now).foldlM RoundTrip.observe estimate).map
        fun estimate => ((connection.upTo ack).length, ⟨connection.beyond ack⟩, estimate) := by
  have near := writes.spans.near
  have ack_eq := writes.aheadOf_of_awaits awaits
  obtain ⟨positive, le⟩ := awaits
  have removed : connection.upTo ack = connection.flight.segments.filter fun segment =>
      segment.finish.aheadOf connection.sendUnacked ≤ ack.aheadOf connection.sendUnacked :=
    List.filter_congr fun segment mem => by
      simp only [ack_eq, writes.aheadOf_finish mem, Int.ofNat_le]
  have kept : connection.beyond ack = connection.flight.segments.filter fun segment =>
      ack.aheadOf connection.sendUnacked < segment.finish.aheadOf connection.sendUnacked :=
    List.filter_congr fun segment mem => by
      simp only [ack_eq, writes.aheadOf_finish mem, Int.ofNat_lt]
  rw [removed, kept]
  exact writes.spans.acknowledge_eq (by omega) (by omega) now estimate

theorem Writes.awaits_iff (writes : connection.Writes script acked settled) (ack : SeqNum) :
    ack.After connection.sendUnacked ∧ ¬ ack.After connection.sendNext ↔ connection.AwaitsAck ack :=
  SeqNum.news_iff_since writes.spans.near

theorem exists_noteFinAcked_eq (connection : Connection) :
    ∃ phase, connection.noteFinAcked = { connection with phase } := by
  rw [noteFinAcked]
  split
  · exact ⟨_, rfl⟩
  · exact ⟨connection.phase, rfl⟩

theorem Writes.takeAck_accepts (writes : connection.Writes script acked settled) (ack : SeqNum)
    (advertised : UInt16) (now : Nat) :
    Ensures
      (fun fault => fault = .duration ∧ connection.AwaitsAck ack ∧
        (Flight.samples (connection.upTo ack) now).foldlM RoundTrip.observe connection.roundTrip =
          .error .duration)
      (connection.Accepts ack advertised now) (connection.takeAck ack advertised now) := by
  have after_iff : ack.After connection.sendNext ↔
      ¬ connection.sendNext.since ack < 2147483648 := Nat.not_lt.symm
  have awaits_iff := writes.awaits_iff ack
  rw [Connection.takeAck]
  by_cases unsent : ack.After connection.sendNext
  · rw [if_pos unsent]
    have unawaited : ¬ connection.AwaitsAck ack := fun awaits => (awaits_iff.mpr awaits).2 unsent
    exact ⟨fun awaits => absurd awaits unawaited, fun _ => ⟨rfl, rfl, rfl⟩,
      (if_neg (after_iff.mp unsent)).symm⟩
  have window_eq : (if connection.sendNext.since ack < 2147483648 then
      connection.granted advertised else connection.sendWindow) =
        connection.granted advertised := if_pos (not_not.mp (mt after_iff.mpr unsent))
  rw [if_neg unsent]
  by_cases news : ack.After connection.sendUnacked
  · have awaits := awaits_iff.mp ⟨news, unsent⟩
    simp only [if_pos news, writes.acknowledge_eq awaits]
    cases timed : (Flight.samples (connection.upTo ack) now).foldlM RoundTrip.observe
        connection.roundTrip with
    | error fault =>
        obtain rfl := RoundTrip.foldlM_observe_error timed
        exact ⟨rfl, awaits, rfl⟩
    | ok estimate =>
        have accepted (middle : Connection) (unacked_eq : middle.sendUnacked = ack)
            (flight_eq : middle.flight = ⟨connection.beyond ack⟩)
            (estimate_eq : middle.roundTrip = estimate)
            (granted_eq : middle.sendWindow = connection.granted advertised) :
            connection.Accepts ack advertised now middle.noteFinAcked := by
          obtain ⟨phase, noted⟩ := middle.exists_noteFinAcked_eq
          rw [noted]
          exact ⟨fun _ =>
              ⟨unacked_eq, congrArg Flight.segments flight_eq, by rw [timed, estimate_eq]⟩,
            fun unawaited => absurd awaits unawaited, granted_eq.trans window_eq.symm⟩
        exact accepted _ rfl rfl rfl rfl
  · have unawaited : ¬ connection.AwaitsAck ack := fun awaits => news (awaits_iff.mpr awaits).1
    simp only [if_neg news]
    exact ⟨fun awaits => absurd awaits unawaited, fun _ => ⟨rfl, rfl, rfl⟩, window_eq.symm⟩

theorem Accepts.takeContent {middle : Connection}
    (accepts : connection.Accepts ack advertised now middle)
    (taken : middle.takeContent segment = .ok after) :
    connection.Accepts ack advertised now after := by
  obtain ⟨window, phase, events, outbox, rfl⟩ := eq_of_takeContent taken
  exact ⟨accepts.awaited, accepts.unawaited, accepts.window_eq⟩

/-- So do all segments without SYN that carry an acknowledgment on an agreed connection. -/
theorem Sound.receive_accepts (sound : connection.Sound background ledger settled)
    (synchronized : connection.phase.isSynchronized) {raw : Bytes}
    (decoded : Segment.decode raw = .ok segment) (plain : segment.header.flags.syn = false)
    (acks : segment.header.flags.ack = true) (now : Nat) :
    Ensures
      (fun fault =>
        fault = .duration ∧ connection.AwaitsAck segment.header.ack ∧
          (Flight.samples (connection.upTo segment.header.ack) now).foldlM RoundTrip.observe
            connection.roundTrip = .error .duration ∨
        fault = .count ∧ UInt32.size ≤ segment.payload.length)
      (connection.Accepts segment.header.ack segment.header.window now)
      (connection.receive raw now) := by
  rw [receive_eq synchronized decoded plain, if_pos acks]
  refine ((sound.writes.takeAck_accepts _ _ now).mono (fun _ => Or.inl) fun _ => id).bind
    fun middle accepts => ?_
  by_cases past : middle.phase = .terminated
  · rw [if_pos past]
    exact accepts
  rw [if_neg past]
  cases taken : middle.takeContent segment with
  | ok after => exact accepts.takeContent taken
  | error fault => exact Or.inr (takeContent_error taken)

end Connection

namespace Station

variable {config : Config} {isn : SeqNum} {station : Station}

/-- An end that agreed with its peer accepts an acknowledgment exactly if its position is in flight,
wherever in the whole space it is.  Only round-trip times and payloads out of range stop it. -/
theorem Arises.accepts (arises : Arises config isn station)
    (synchronized : station.connection.phase.isSynchronized) {raw : Bytes} {segment : Segment}
    (decoded : Segment.decode raw = .ok segment) (plain : segment.header.flags.syn = false)
    (acks : segment.header.flags.ack = true) (now : Nat) :
    Ensures
      (fun fault =>
        fault = .duration ∧ station.connection.AwaitsAck segment.header.ack ∧
          (Flight.samples (station.connection.upTo segment.header.ack) now).foldlM
            RoundTrip.observe station.connection.roundTrip = .error .duration ∨
        fault = .count ∧ UInt32.size ≤ segment.payload.length)
      (station.connection.Accepts segment.header.ack segment.header.window now)
      (station.connection.receive raw now) := by
  obtain ⟨ledger, settled, sound⟩ := arises.sound
  exact sound.connection.receive_accepts synchronized decoded plain acks now

/-- One end asks for a connection, is answered, and sends two bytes across the end of the space. -/
def sendsAcross : List (Occurrence × Nat) :=
  [(.operate .openActive, 0),
    (.operate (.receive ((Cargo.syn true).encode ⟨7⟩ ⟨4294967295⟩ 4)), 0),
    (.operate (.send [1, 2]), 0), (.operate (.send [3]), 0)]

/-- The first of two segments is acknowledged, together with the window. -/
theorem accepts_sendsAcross :
    ∃ (station : Station) (after : Connection), Arises Network.narrow ⟨4294967294⟩ station ∧
      station.connection.receive ((Cargo.data [65]).encode ⟨8⟩ ⟨1⟩ 3) 5 = .ok after ∧
      after.sendUnacked = ⟨1⟩ ∧ after.flight.segments = station.connection.flight.segments.drop 1 ∧
      after.sendWindow = 3 := by
  have arises : Arises Network.narrow ⟨4294967294⟩ _ := ⟨_, sendsAcross, rfl, rfl⟩
  have accepts := (arises.accepts (by rfl) (Cargo.decode_encode (.data [65]) ⟨8⟩ ⟨1⟩ 3) rfl rfl
    5).of_ok rfl
  obtain ⟨unacked_eq, flight_eq, -⟩ := accepts.awaited (by decide)
  exact ⟨_, _, arises, rfl, unacked_eq, flight_eq, accepts.window_eq⟩

/-- With a clock of the coarsest granularity, which no rule forbids, a position in flight is not
accepted: the first nonzero sample of a round trip leaves the range of times. -/
theorem not_accepts_coarse :
    let config := { Network.narrow with clockGranularity := Duration.limit - 1 }
    config.Valid ∧ ∃ (station : Station) (segment : Segment),
      Arises config ⟨4294967294⟩ station ∧ station.connection.phase.isSynchronized ∧
      Segment.decode (Segment.acknowledgment ⟨8⟩ ⟨1⟩ 4) = .ok segment ∧
      segment.header.flags.syn = false ∧ segment.header.flags.ack = true ∧
      station.connection.AwaitsAck segment.header.ack ∧
      station.connection.receive (Segment.acknowledgment ⟨8⟩ ⟨1⟩ 4) Duration.second =
        .error .duration :=
  ⟨rfl, _, _, ⟨_, sendsAcross, rfl, rfl⟩, rfl, rfl, rfl, rfl, by decide, rfl⟩

end Station
end ReliableTransport
