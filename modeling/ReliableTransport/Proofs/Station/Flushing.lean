import ReliableTransport.Proofs.Station.Basic
import ReliableTransport.Proofs.Network.Preservation

/-!
# Flushing pending data

Pending bytes are sent as long as the window of the peer permits, each time as many as fit in one
segment.  So all segments but the last one are full, and what is sent is the front of the pending
bytes that the window permits, wherever in the sequence space it comes to lie.
-/

namespace ReliableTransport

open Fault Script

/-- The pieces of a size that a byte string is cut into from its front on.  The last piece may be
shorter. -/
def Bytes.pieces (size : Nat) (bytes : Bytes) : List Bytes :=
  if bytes = [] ∨ size = 0 then [] else bytes.take size :: pieces size (bytes.drop size)
termination_by bytes.length
decreasing_by
  rw [List.length_drop]
  have bytes_pos : 0 < bytes.length := List.length_pos_iff.mpr (by tauto)
  omega

namespace Bytes

variable {size : Nat} {bytes : Bytes}

theorem pieces_nil (size : Nat) : pieces size [] = [] := by
  rw [pieces, if_pos (Or.inl rfl)]

theorem pieces_of_ne_nil (size_pos : 0 < size) (bytes_ne : bytes ≠ []) :
    pieces size bytes = bytes.take size :: pieces size (bytes.drop size) := by
  rw [pieces, if_neg]
  rintro (empty | zero)
  · exact bytes_ne empty
  · omega

theorem flatten_pieces (size_pos : 0 < size) (bytes : Bytes) :
    (pieces size bytes).flatten = bytes := by
  induction bytes using pieces.induct size with
  | case1 bytes done =>
      rcases done with rfl | zero
      · rw [pieces_nil, List.flatten_nil]
      · omega
  | case2 bytes some_left ih =>
      rw [pieces_of_ne_nil size_pos (fun empty => some_left (Or.inl empty)), List.flatten_cons, ih,
        List.take_append_drop]

theorem length_of_mem_pieces {piece : Bytes} (mem : piece ∈ pieces size bytes) :
    piece ≠ [] ∧ piece.length ≤ size := by
  induction bytes using pieces.induct size with
  | case1 bytes done =>
      rw [pieces, if_pos done] at mem
      cases mem
  | case2 bytes some_left ih =>
      rw [pieces, if_neg some_left] at mem
      rcases List.mem_cons.mp mem with rfl | mem
      · refine ⟨fun empty => some_left ?_, List.length_take_le _ _⟩
        exact (List.take_eq_nil_iff.mp empty).symm
      · exact ih mem

theorem length_of_mem_dropLast_pieces {piece : Bytes}
    (mem : piece ∈ (pieces size bytes).dropLast) : piece.length = size := by
  induction bytes using pieces.induct size with
  | case1 bytes done =>
      rw [pieces, if_pos done] at mem
      cases mem
  | case2 bytes some_left ih =>
      rw [pieces, if_neg some_left] at mem
      by_cases none_left : pieces size (bytes.drop size) = []
      · rw [none_left] at mem
        cases mem
      · rw [List.dropLast_cons_of_ne_nil none_left] at mem
        rcases List.mem_cons.mp mem with rfl | mem
        · -- something is left behind a piece, so that it was not shortened
          have rest_ne : bytes.drop size ≠ [] := fun empty => none_left (by rw [empty, pieces_nil])
          rw [ne_eq, List.drop_eq_nil_iff, Nat.not_le] at rest_ne
          exact List.length_take_of_le (Nat.le_of_lt rest_ne)
        · exact ih mem

end Bytes

namespace Flight

/-- The outstanding segments with chunks of the stream at consecutive positions, as sent for the
first time. -/
def launched (ack : SeqNum) (window : UInt16) (now : Nat) : SeqNum → List Bytes → List Outstanding
  | _, [] => []
  | seq, chunk :: chunks =>
      { raw := Segment.encode { flags := { ack := true }, seq, ack, window } chunk
        seq, length := chunk.length, sentAt := now, retries := 0 } ::
          launched ack window now (seq.advance chunk.length) chunks

/-- Each of them lies within the stretch that all of them occupy. -/
theorem exists_of_mem_launched {ack seq : SeqNum} {window : UInt16} {now : Nat}
    {chunks : List Bytes} {segment : Outstanding}
    (mem : segment ∈ launched ack window now seq chunks) :
    ∃ start, segment.seq = seq.advance start ∧
      start + segment.length ≤ chunks.flatten.length := by
  induction chunks generalizing seq with
  | nil => cases mem
  | cons chunk chunks ih =>
      rw [List.flatten_cons, List.length_append]
      rcases List.mem_cons.mp mem with rfl | mem
      · exact ⟨0, (SeqNum.advance_zero seq).symm, by simp⟩
      · obtain ⟨start, seq_eq, within⟩ := ih mem
        exact ⟨chunk.length + start, by rw [seq_eq, SeqNum.advance_advance], by omega⟩

end Flight

namespace Connection

variable {connection after : Connection} {background : Background} {ledger : Ledger}
  {settled now : Nat} {pending : Bytes}

/-- The segments in which chunks of the stream are sent from the next position on. -/
def launching (connection : Connection) (chunks : List Bytes) (now : Nat) : List Outstanding :=
  Flight.launched connection.recvNext connection.config.receiveWindow now connection.sendNext chunks

/-- The connection after chunks of the stream were sent.  They are outstanding and queued, and the
next position lies behind them; nothing else changed. -/
def launch (connection : Connection) (chunks : List Bytes) (now : Nat) : Connection :=
  { connection with
    flight := ⟨connection.flight.segments ++ connection.launching chunks now⟩
    sendNext := connection.sendNext.advance chunks.flatten.length
    outbox := connection.outbox ++ (connection.launching chunks now).map (·.raw) }

theorem launch_nil (connection : Connection) (now : Nat) :
    connection.launch [] now = connection := by
  simp [launch, launching, Flight.launched]

theorem launch_cons (connection : Connection) (chunk : Bytes) (chunks : List Bytes) (now : Nat) :
    (connection.launch [chunk] now).launch chunks now =
      connection.launch (chunk :: chunks) now := by
  simp [launch, launching, Flight.launched, SeqNum.advance_advance, recvNext]

/-- The number of pending bytes that the window permits to send. -/
def permitted (connection : Connection) (pending : Bytes) : Nat :=
  min pending.length connection.usableWindow

theorem permitted_le (connection : Connection) (pending : Bytes) :
    connection.permitted pending ≤ pending.length :=
  Nat.min_le_left _ _

theorem permitted_le_usableWindow (connection : Connection) (pending : Bytes) :
    connection.permitted pending ≤ connection.usableWindow :=
  Nat.min_le_right _ _

theorem nextChunk_eq (can : connection.canSend = true) (pending : Bytes) :
    connection.nextChunk pending =
      (pending.take (connection.permitted pending)).take connection.config.maxSegmentSize := by
  rw [nextChunk, if_pos can, List.take_take, List.take_eq_take_iff, permitted]
  omega

theorem length_nextChunk (can : connection.canSend = true) (pending : Bytes) :
    (connection.nextChunk pending).length =
      min connection.config.maxSegmentSize (connection.permitted pending) := by
  rw [nextChunk_eq can, List.length_take,
    List.length_take_of_le (connection.permitted_le pending)]

theorem nextChunk_ne_nil (can : connection.canSend = true)
    (size_pos : 0 < connection.config.maxSegmentSize)
    (permitted_pos : 0 < connection.permitted pending) : connection.nextChunk pending ≠ [] := by
  rw [← List.length_pos_iff, length_nextChunk can]
  exact Nat.lt_min.mpr ⟨size_pos, permitted_pos⟩

theorem take_drop_nextChunk (can : connection.canSend = true) (pending : Bytes) :
    (pending.drop (connection.nextChunk pending).length).take
        (connection.permitted pending - (connection.nextChunk pending).length) =
      (pending.take (connection.permitted pending)).drop connection.config.maxSegmentSize := by
  have taken_le := List.length_take_le (connection.permitted pending) pending
  rw [← List.drop_take, length_nextChunk can]
  rcases Nat.le_total connection.config.maxSegmentSize (connection.permitted pending)
    with full | short
  · rw [Nat.min_eq_left full]
  · rw [Nat.min_eq_right short, List.drop_eq_nil_of_le taken_le,
      List.drop_eq_nil_of_le (taken_le.trans short)]

theorem eq_of_transmit_chunk {chunk : Bytes} (chunk_ne : chunk ≠ [])
    (short : chunk.length < 4294967294)
    (done : connection.transmit { ack := true } chunk now = .ok after) :
    after = connection.launch [chunk] now := by
  obtain ⟨length, measured, done⟩ := exists_of_bind_eq_ok done
  rw [Flags.span_eq short] at measured
  obtain rfl := Except.ok.inj measured
  have occupies : chunk.length + false.toNat + false.toNat ≠ 0 :=
    Nat.ne_of_gt (List.length_pos_iff.mpr chunk_ne)
  rw [if_neg occupies] at done
  obtain ⟨flight, pushed, done⟩ := exists_of_bind_eq_ok done
  rw [Flight.push, if_neg occupies] at pushed
  split at pushed
  · cases pushed
  obtain rfl := Except.ok.inj pushed
  obtain rfl := Except.ok.inj done
  simp [launch, launching, Flight.launched, header]

namespace Sound

/-- As long as a chunk can be sent, it is launched, and the connection stays sound. -/
theorem launch (sound : connection.Sound background ledger settled)
    (chunk_ne : connection.nextChunk pending ≠ []) (now : Nat) :
    connection.sendChunk pending now =
        .ok (connection.nextChunk pending, connection.launch [connection.nextChunk pending] now) ∧
      ∃ ledger' settled',
        (connection.launch [connection.nextChunk pending] now).Sound background ledger'
          settled' := by
  obtain ⟨after, sent, ledger', settled', sound', -⟩ := sound.sendChunk pending now
  have window_le := sound.writes.window_le
  have bound := connection.config.maxSendWindow.toNat_lt
  have chunk_le : (connection.nextChunk pending).length ≤ connection.sendWindow := by
    rw [nextChunk]
    split
    · rw [List.length_take, usableWindow]
      omega
    · exact Nat.zero_le _
  have transmitted := sent
  rw [Connection.sendChunk, if_neg (by simpa using chunk_ne)] at transmitted
  obtain ⟨middle, done, same⟩ := exists_of_bind_eq_ok transmitted
  obtain ⟨-, rfl⟩ := Prod.mk.inj (Except.ok.inj same)
  obtain rfl := eq_of_transmit_chunk chunk_ne (by omega) done
  exact ⟨sent, ledger', settled', sound'⟩

theorem usableWindow_launch (sound : connection.Sound background ledger settled)
    {chunks : List Bytes} (fits : chunks.flatten.length ≤ connection.usableWindow) (now : Nat) :
    (connection.launch chunks now).usableWindow =
      connection.usableWindow - chunks.flatten.length := by
  have window_le := sound.writes.window_le
  have bound := connection.config.maxSendWindow.toNat_lt
  have next_lt : connection.sendNext.since connection.sendUnacked < 4294967296 :=
    UInt32.toNat_lt _
  rw [usableWindow, inFlight] at fits
  have near : connection.sendNext.since connection.sendUnacked + chunks.flatten.length <
      4294967296 := by
    omega
  have inFlight_eq : (connection.launch chunks now).inFlight =
      connection.inFlight + chunks.flatten.length := SeqNum.since_of_advance near
  rw [usableWindow, usableWindow, inFlight_eq]
  exact Nat.sub_add_eq _ _ _

/-- What is permitted after a launched chunk is the rest. -/
theorem permitted_launch (sound : connection.Sound background ledger settled)
    (can : connection.canSend = true) (pending : Bytes) (now : Nat) :
    (connection.launch [connection.nextChunk pending] now).permitted
        (pending.drop (connection.nextChunk pending).length) =
      connection.permitted pending - (connection.nextChunk pending).length := by
  have length_eq := length_nextChunk can pending
  have usable_le := connection.permitted_le_usableWindow pending
  have flatten_eq : [connection.nextChunk pending].flatten = connection.nextChunk pending :=
    List.flatten_singleton
  have fits : [connection.nextChunk pending].flatten.length ≤ connection.usableWindow := by
    rw [flatten_eq]
    omega
  have usable_eq := sound.usableWindow_launch fits now
  rw [flatten_eq] at usable_eq
  rw [permitted, usable_eq, List.length_drop, permitted]
  omega

/-- With a round for each pending byte, exactly what the window permits is sent, in pieces of the
largest segment size. -/
theorem flushWithin_eq (sound : connection.Sound background ledger settled)
    (size_pos : 0 < connection.config.maxSegmentSize) (can : connection.canSend = true)
    {rounds : Nat} (enough : pending.length ≤ rounds) (now : Nat) :
    connection.flushWithin rounds pending now =
      .ok (Bytes.pieces connection.config.maxSegmentSize
          (pending.take (connection.permitted pending)),
        pending.drop (connection.permitted pending),
        connection.launch (Bytes.pieces connection.config.maxSegmentSize
          (pending.take (connection.permitted pending))) now) := by
  induction rounds generalizing connection pending ledger settled with
  | zero =>
      obtain rfl := List.eq_nil_of_length_eq_zero (Nat.le_zero.mp enough)
      rw [List.take_nil, List.drop_nil, Bytes.pieces_nil, launch_nil]
      rfl
  | succ rounds ih =>
      have chunk_eq := nextChunk_eq can pending
      rcases Nat.eq_zero_or_pos (connection.permitted pending) with zero | permitted_pos
      · rw [zero, List.take_zero, List.take_nil] at chunk_eq
        rw [flushWithin_of_nil chunk_eq, zero, List.take_zero, Bytes.pieces_nil, launch_nil,
          List.drop_zero]
      · have chunk_ne := nextChunk_ne_nil can size_pos permitted_pos
        have chunk_pos := List.length_pos_iff.mpr chunk_ne
        have chunk_le : (connection.nextChunk pending).length ≤ connection.permitted pending := by
          rw [length_nextChunk can]
          exact Nat.min_le_right _ _
        obtain ⟨sent, ledger', settled', sound'⟩ := sound.launch chunk_ne now
        -- the other rounds send what is permitted behind the chunk
        have rest_le : (pending.drop (connection.nextChunk pending).length).length ≤ rounds := by
          rw [List.length_drop]
          omega
        have others := ih sound' size_pos can rest_le
        rw [sound.permitted_launch can pending, take_drop_nextChunk can, List.drop_drop,
          Nat.add_sub_cancel' chunk_le, launch_cons] at others
        have taken_ne : pending.take (connection.permitted pending) ≠ [] := by
          rw [← List.length_pos_iff, List.length_take_of_le (connection.permitted_le _)]
          exact permitted_pos
        rw [flushWithin, sent, Bytes.pieces_of_ne_nil size_pos taken_ne, ← chunk_eq]
        simp only [bind, Except.bind]
        rw [if_neg (by simpa using chunk_ne), others]
        rfl

theorem since_lt_of_mem_launching (sound : connection.Sound background ledger settled)
    {chunks : List Bytes} (fits : chunks.flatten.length ≤ connection.usableWindow)
    {segment : Outstanding} (mem : segment ∈ connection.launching chunks now) {offset : Nat}
    (inside : offset < segment.length) :
    (segment.seq.advance offset).since connection.sendUnacked < connection.sendWindow := by
  have window_le := sound.writes.window_le
  have bound := connection.config.maxSendWindow.toNat_lt
  obtain ⟨start, seq_eq, within⟩ := Flight.exists_of_mem_launched mem
  rw [usableWindow, inFlight] at fits
  rw [seq_eq, SeqNum.advance_advance, SeqNum.since_of_advance (by omega)]
  omega

end Sound
end Connection

namespace Station

variable {config : Config} {isn : SeqNum} {station : Station}

/-- The pending bytes that the window of the peer permits are sent at once, in segments at
consecutive positions that are all full but the last one, and no byte beyond the window. -/
theorem Arises.flushes (arises : Arises config isn station)
    (size_pos : 0 < config.maxSegmentSize) (pending : Bytes) (now : Nat) :
    let connection := station.connection
    let count := min pending.length connection.usableWindow
    let chunks := Bytes.pieces config.maxSegmentSize (pending.take count)
    (connection.canSend = true →
      (∀ rounds, pending.length ≤ rounds →
        connection.flushWithin rounds pending now =
          .ok (chunks, pending.drop count, connection.launch chunks now)) ∧
      (∀ later, (connection.launch chunks now).sendChunk (pending.drop count) later =
        .ok ([], connection.launch chunks now)) ∧
      chunks.flatten = pending.take count ∧
      (∀ chunk ∈ chunks.dropLast, chunk.length = config.maxSegmentSize) ∧
      (∀ chunk ∈ chunks, chunk ≠ [] ∧ chunk.length ≤ config.maxSegmentSize) ∧
      (∀ segment ∈ connection.launching chunks now, ∀ offset < segment.length,
        (segment.seq.advance offset).since connection.sendUnacked < connection.sendWindow)) ∧
    (connection.canSend = false →
      ∀ rounds, connection.flushWithin rounds pending now = .ok ([], pending, connection) ∧
        ∀ later, connection.sendChunk pending later = .ok ([], connection)) := by
  intro connection count chunks
  obtain ⟨ledger, settled, sound⟩ := arises.sound
  have config_eq : connection.config = config := sound.connection.config_eq
  have flatten_eq : chunks.flatten = pending.take count := Bytes.flatten_pieces size_pos _
  have length_eq : chunks.flatten.length = count := by
    rw [flatten_eq, List.length_take_of_le (Nat.min_le_left _ _)]
  have fits : chunks.flatten.length ≤ connection.usableWindow :=
    length_eq.trans_le (Nat.min_le_right _ _)
  refine ⟨fun can => ⟨fun rounds enough => ?_, fun later => ?_, flatten_eq,
    fun chunk mem => Bytes.length_of_mem_dropLast_pieces mem,
    fun chunk mem => Bytes.length_of_mem_pieces mem,
    fun segment mem offset inside => sound.connection.since_lt_of_mem_launching fits mem inside⟩,
    fun cannot rounds => ⟨Connection.flushWithin_of_not_canSend cannot rounds pending now,
      fun later => Connection.sendChunk_of_nil
        (Connection.nextChunk_of_not_canSend cannot pending) later⟩⟩
  · have flushed := sound.connection.flushWithin_eq (config_eq ▸ size_pos) can enough now
    rwa [show station.connection.config = config from config_eq] at flushed
  · -- either all pending bytes were sent, or the window is exhausted
    refine Connection.sendChunk_of_nil ?_ later
    have usable_eq := sound.connection.usableWindow_launch fits now
    have still_can : (connection.launch chunks now).canSend = true := can
    rw [Connection.nextChunk_eq still_can, Connection.permitted, usable_eq, length_eq,
      List.length_drop]
    have exhausted : min (pending.length - count) (connection.usableWindow - count) = 0 := by
      omega
    rw [exhausted, List.take_zero, List.take_nil]

/-- One end asks for a connection and is granted three bytes at the end of the sequence space. -/
def awaitsData : List (Occurrence × Nat) :=
  [(.operate .openActive, 0),
    (.operate (.receive ((Cargo.syn true).encode ⟨7⟩ ⟨4294967295⟩ 3)), 0)]

/-- Of five bytes, three are sent in two segments, across the end of the sequence space. -/
theorem flushes_across :
    ∃ (station : Station) (after : Connection), Arises Network.narrow ⟨4294967294⟩ station ∧
      station.connection.flush [1, 2, 3, 4, 5] 9 = .ok ([[1, 2], [3]], [4, 5], after) ∧
      after.flight.segments.map (fun segment => (segment.seq, segment.length)) =
        [(⟨4294967295⟩, 2), (⟨1⟩, 1)] ∧
      after.sendChunk [4, 5] 10 = .ok ([], after) := by
  obtain ⟨station, arises, can, usable_eq, next_eq, none_left⟩ :
      ∃ station, Arises Network.narrow ⟨4294967294⟩ station ∧ station.connection.canSend = true ∧
        station.connection.usableWindow = 3 ∧ station.connection.sendNext = ⟨4294967295⟩ ∧
        station.connection.flight.segments = [] :=
    ⟨_, ⟨_, awaitsData, rfl, rfl⟩, rfl, rfl, rfl, rfl⟩
  obtain ⟨flushed, rest, -⟩ := (arises.flushes (by decide) [1, 2, 3, 4, 5] 9).1 can
  have chunks_eq : Bytes.pieces Network.narrow.maxSegmentSize
      (([1, 2, 3, 4, 5] : Bytes).take (min 5 3)) = [[1, 2], [3]] := by
    simp [Bytes.pieces, Network.narrow]
  have flushed := flushed 5 (Nat.le_refl _)
  have rest := rest 10
  simp only [usable_eq, List.length_cons, List.length_nil] at flushed rest
  rw [chunks_eq] at flushed rest
  refine ⟨station, _, arises, flushed, ?_, rest⟩
  simp [Connection.launch, Connection.launching, Flight.launched, none_left, next_eq,
    SeqNum.advance]

end Station
end ReliableTransport
