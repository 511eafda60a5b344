import ReliableTransport.Proofs.Network.Preservation
import ReliableTransport.Proofs.Station.Basic

/-!
# What an end puts on the wire

All segments of an end describe one stream of bytes, those that are sent for the first time and those
that are sent again.  Each fits in the buffer of a receiver.
-/

namespace ReliableTransport

open Script

/-- A segment of an end with a stream: its SYN, a piece of the stream at its place, its FIN behind a
stream that stays as it is, or nothing but an acknowledgment. -/
inductive Station.Describes (station : Station) (isn : SeqNum) (segment : Segment) : Prop
  /-- The SYN, which may answer the peer's. -/
  | syn (answers : Bool) : segment.header.flags = { syn := true, ack := answers } →
      segment.header.seq = isn → segment.payload = [] → Describes station isn segment
  /-- A piece of the stream. -/
  | data (front back : Bytes) : segment.header.flags = { ack := true } → segment.payload ≠ [] →
      segment.payload.length ≤ station.connection.config.maxSegmentSize →
      segment.header.seq = isn.advance (1 + front.length) →
      station.taken = front ++ segment.payload ++ back → Describes station isn segment
  /-- The FIN. -/
  | fin : segment.header.flags = { fin := true, ack := true } → segment.payload = [] →
      segment.header.seq = isn.advance (1 + station.taken.length) →
      (∀ history after, station.live history = .ok after → after.taken = station.taken) →
      Describes station isn segment
  /-- Nothing but an acknowledgment. -/
  | acknowledgment : segment.header.flags = { ack := true } → segment.payload = [] →
      Describes station isn segment

namespace Station.Sound

variable {config : Config} {isn : SeqNum} {station : Station} {ledger : Ledger} {settled : Nat}

theorem chunk_le (sound : Sound config isn station ledger settled) {chunk : Bytes}
    (mem : .data chunk ∈ ledger.script) : chunk.length ≤ config.maxSegmentSize := by
  rw [← show station.connection.config = config from sound.connection.config_eq]
  exact (sound.connection.writes.chunk_le chunk mem).1

theorem length_le (sound : Sound config isn station ledger settled) {raw : Bytes}
    (sent : raw ∈ station.sent) : raw.length ≤ Segment.fixedLength + config.maxSegmentSize := by
  cases sound.connection.utters raw sent with
  | @cargo front back cargo ack split =>
      have written : cargo ∈ ledger.script := by
        rw [split]
        simp
      rw [Cargo.encode, Segment.length_encode]
      cases cargo with
      | data chunk => exact Nat.add_le_add_left (sound.chunk_le written) _
      | syn answers => exact Nat.le_add_right _ _
      | fin => exact Nat.le_add_right _ _
  | acknowledgment seq ack =>
      rw [Segment.acknowledgment, Segment.length_encode]
      exact Nat.le_add_right _ _

theorem taken_eq_of_live (sound : Sound config isn station ledger settled)
    (written : .fin ∈ ledger.script) {history : List (Occurrence × Nat)} {after : Station}
    (done : station.live history = .ok after) : after.taken = station.taken := by
  obtain ⟨ledger', settled', sound', isFront⟩ := sound.live done
  rw [← sound.content_eq, ← sound'.content_eq,
    sound'.connection.writes.valid.eq_of_fin_mem isFront written]

theorem describes_cargo (sound : Sound config isn station ledger settled) {front back : List Cargo}
    {cargo : Cargo} (split : ledger.script = front ++ cargo :: back) (ack : SeqNum)
    (window : UInt16) :
    station.Describes isn (cargo.segment (isn.advance (extent front)) ack window) := by
  have valid := sound.connection.writes.valid
  have content_eq := sound.content_eq
  rw [split] at valid
  rw [split, content_append, content_cons] at content_eq
  cases cargo with
  | syn answers =>
      obtain rfl := valid.nil_of_append_syn
      exact .syn answers rfl (SeqNum.advance_zero isn) rfl
  | data chunk =>
      have front_ne : front ≠ [] := by
        rintro rfl
        obtain ⟨answers, rest, first, -⟩ := valid.head_syn (by simp)
        cases (List.cons.inj first).1
      have chunk_pos := valid.length_pos (show .data chunk ∈ front ++ .data chunk :: back by simp)
      refine .data (content front) (content back) rfl ?_ ?_ ?_ ?_
      · exact List.length_pos_iff.mp (Cargo.length_data chunk ▸ chunk_pos)
      · exact (sound.connection.writes.chunk_le chunk (by rw [split]; simp)).1
      · exact congrArg isn.advance (valid.extent_front front_ne)
      · exact content_eq.symm.trans (List.append_assoc _ _ _).symm
  | fin =>
      obtain rfl := valid.nil_of_append_fin
      have front_ne : front ≠ [] := by
        rintro rfl
        obtain ⟨answers, rest, first, -⟩ := valid.head_syn (by simp)
        cases (List.cons.inj first).1
      refine .fin rfl rfl ?_ fun history after => sound.taken_eq_of_live (by rw [split]; simp)
      rw [← content_eq, List.length_append]
      exact congrArg isn.advance (valid.extent_front front_ne)

end Station.Sound

namespace Station

/-- Every segment that a connection ever queued reads back, fits in the buffer of a receiver, grants
the own window and describes the stream of bytes that were taken for sending. -/
theorem Arises.describes_stream {config : Config} {isn : SeqNum} {station : Station}
    (arises : Arises config isn station) (valid : config.Valid) :
    ∀ raw ∈ station.sent, raw.length ≤ 20 + config.maxSegmentSize ∧ raw.length ≤ 65535 ∧
      ∃ segment, Segment.decode raw = .ok segment ∧
        segment.header.window = config.receiveWindow ∧ station.Describes isn segment := by
  obtain ⟨ledger, settled, sound⟩ := arises.sound
  intro raw sent
  have length_le : raw.length ≤ 20 + config.maxSegmentSize := sound.length_le sent
  have size_le : config.maxSegmentSize ≤ 65515 := ((Config.valid_iff config).mp valid).2.1
  refine ⟨length_le, by omega, ?_⟩
  cases sound.connection.utters raw sent with
  | cargo ack split =>
      exact ⟨_, Cargo.decode_encode _ _ _ _, rfl, sound.describes_cargo split ack _⟩
  | acknowledgment seq ack =>
      exact ⟨_, Segment.decode_acknowledgment seq ack config.receiveWindow, rfl,
        .acknowledgment rfl rfl⟩

/-- The first of two chunks is sent again after the peer sent a byte. -/
theorem describes_stream_resent :
    ∃ station : Station, Arises Network.narrow ⟨4294967295⟩ station ∧
      station.taken = [7, 8, 9] ∧ (Cargo.data [7, 8]).encode ⟨0⟩ ⟨8⟩ 4 ∈ station.sent ∧
      (Cargo.data [7, 8]).encode ⟨0⟩ ⟨9⟩ 4 ∈ station.sent ∧
      ∃ segment, Segment.decode ((Cargo.data [7, 8]).encode ⟨0⟩ ⟨9⟩ 4) = .ok segment ∧
        segment.header.window = 4 ∧ station.Describes ⟨4294967295⟩ segment := by
  let history : List (Occurrence × Nat) :=
    [(.operate .listen, 0), (.operate (.receive ((Cargo.syn false).encode ⟨7⟩ ⟨0⟩ 4)), 1),
      (.operate (.receive (Segment.acknowledgment ⟨8⟩ ⟨0⟩ 4)), 2), (.emit, 2),
      (.operate (.send [7, 8, 9]), 3), (.operate (.send [9]), 3), (.emit, 3),
      (.operate (.receive ((Cargo.data [1]).encode ⟨8⟩ ⟨1⟩ 4)), 4), (.operate .expire, 5)]
  have lived : ∃ station : Station, Arises Network.narrow ⟨4294967295⟩ station ∧
      station.taken = [7, 8, 9] ∧ (Cargo.data [7, 8]).encode ⟨0⟩ ⟨8⟩ 4 ∈ station.sent ∧
      (Cargo.data [7, 8]).encode ⟨0⟩ ⟨9⟩ 4 ∈ station.sent :=
    ⟨_, ⟨_, history, rfl, rfl⟩, rfl, by decide, by decide⟩
  obtain ⟨station, arises, taken_eq, first, again⟩ := lived
  obtain ⟨-, -, described⟩ := arises.describes_stream rfl _ again
  exact ⟨station, arises, taken_eq, first, again, described⟩

end Station
end ReliableTransport
