import ReliableTransport.Proofs.Connection.Moderation
import ReliableTransport.Proofs.Station.Phases

/-!
# What an end takes in

The receiving side of a connection changes when the handshake tells the position of the peer's
stream and when content arrives, and at no other time.  Whatever an operation does to it, every
segment that the operation queues acknowledges the next expected position as the operation left it.
-/

namespace ReliableTransport

open Fault

namespace Segment

/-- A segment brings the byte or the FIN at a position.  What accompanies a SYN counts for
nothing. -/
def Brings (segment : Segment) (position : SeqNum) : Prop :=
  segment.header.flags.syn = false ∧
    position.since segment.header.seq < segment.payload.length + segment.header.flags.fin.toNat

/-- If a byte string is a segment that acknowledges something, it acknowledges what precedes a
position. -/
def Confirms (raw : Bytes) (position : SeqNum) : Prop :=
  ∀ segment, decode raw = .ok segment → segment.header.flags.ack = true →
    segment.header.ack = position

theorem confirms_encode (header : Header) (payload : Bytes) :
    Confirms (encode header payload) header.ack := by
  intro segment decoded _
  rw [decode_encode] at decoded
  obtain rfl := Except.ok.inj decoded
  rfl

theorem confirms_patchAck {raw patched : Bytes} {ack : SeqNum}
    (done : patchAck raw ack = .ok patched) : Confirms patched ack := by
  intro segment decoded _
  rw [decode_of_patchAck done] at decoded
  cases earlier : decode raw with
  | error failure =>
      rw [earlier] at decoded
      cases decoded
  | ok before =>
      rw [earlier] at decoded
      obtain rfl := Except.ok.inj decoded
      rfl

end Segment

theorem Flags.length_le_of_span {payloadLength length : Nat}
    (span_eq : ({} : Flags).span payloadLength = .ok length) :
    length ≤ payloadLength ∧ length < 4294967296 := by
  rw [span] at span_eq
  simp only [Bool.toNat_false, Nat.add_zero, UInt32.size] at span_eq
  split at span_eq
  · obtain rfl := Except.ok.inj span_eq
    omega
  · cases span_eq

/-- The events that tell of a run of the peer's stream and of its end. -/
def AppEvent.tidings (run : Bytes) (finished : Bool) : List AppEvent :=
  (if run.isEmpty then [] else [.data run]) ++ if finished then [.peerFinished] else []

@[simp]
theorem AppEvent.bytes_tidings (run : Bytes) (finished : Bool) :
    (tidings run finished).flatMap AppEvent.bytes = run := by
  cases run <;> cases finished <;> simp [tidings, AppEvent.bytes]

@[simp]
theorem AppEvent.count_tidings (run : Bytes) (finished : Bool) :
    (tidings run finished).count .peerFinished = finished.toNat := by
  cases run <;> cases finished <;> simp [tidings]

theorem AppEvent.eq_of_data_mem_tidings {run bytes : Bytes} {finished : Bool}
    (mem : .data bytes ∈ tidings run finished) : bytes = run := by
  cases run <;> cases finished <;> simp_all [tidings]

/-- The position behind the SYN of the peer and behind everything that some events tell of. -/
def AppEvent.reach (irs : SeqNum) (events : List AppEvent) : SeqNum :=
  irs.advance (1 + (events.flatMap bytes).length + events.count .peerFinished)

theorem AppEvent.reach_append_tidings (irs : SeqNum) (events : List AppEvent) (run : Bytes)
    (finished : Bool) :
    reach irs (events ++ tidings run finished) =
      (reach irs events).advance (run.length + finished.toNat) := by
  rw [reach, reach, SeqNum.advance_advance, List.flatMap_append, List.length_append,
    List.count_append, bytes_tidings, count_tidings]
  congr 1
  omega

namespace Phase

/-- The position of the peer's stream is still unknown. -/
def isOpening : Phase → Bool
  | closed | synSent => true
  | synReceived | established | finWait1 | finWait2 | closeWait | lastAck | closing | terminated =>
      false

theorem isSome_afterPeerFin? {phase : Phase} (synchronized : phase.isSynchronized) :
    phase.afterPeerFin?.isSome = !phase.peerFinished := by
  cases phase <;> first | rfl | cases synchronized

theorem isOpening_afterPeerFin {phase next : Phase} (moves : phase.afterPeerFin? = some next) :
    next.isOpening = false := by
  cases phase <;> simp_all [afterPeerFin?] <;> subst moves <;> rfl

theorem peerFinished_afterFinAcked {phase : Phase} (running : phase.afterFinAcked ≠ terminated) :
    phase.afterFinAcked.peerFinished = phase.peerFinished := by
  cases phase <;> first | rfl | exact absurd rfl running

theorem isOpening_of_synchronized {phase : Phase} (synchronized : phase.isSynchronized) :
    phase.isOpening = false := by
  cases phase <;> first | rfl | cases synchronized

end Phase

namespace Connection

variable {connection after : Connection} {now : Nat}

/-- What an operation queued acknowledges the next expected position as the operation left it. -/
def Answers (before after : Connection) : Prop :=
  ∃ queued, after.outbox = before.outbox ++ queued ∧
    ∀ raw ∈ queued, Segment.Confirms raw after.recvNext

/-- The receiving side stays as it was, and no handshake is made. -/
structure Rests (before after : Connection) : Prop where
  /-- The window stays. -/
  window_eq : after.window = before.window
  /-- The application is told nothing. -/
  events_eq : after.events = before.events
  /-- The position of the peer's stream does not become known. -/
  phase : after.phase = .terminated ∨ after.phase.isOpening = before.phase.isOpening
  /-- A connection that is over stays so. -/
  ended : before.phase = .terminated → after.phase = .terminated
  /-- What is queued confirms the next expected position. -/
  answers : before.Answers after

/-- The SYN of the peer tells the position of its stream. -/
structure Meets (before : Connection) (segment : Segment) (after : Connection) : Prop where
  /-- The position was unknown. -/
  opening : before.phase.isOpening = true
  /-- The handshake goes on. -/
  opened : after.phase = .synReceived ∨ after.phase = .established
  /-- The window lies behind the SYN. -/
  window_eq : after.window = (before.window.synchronize segment.header.seq).consumeFlag
  /-- The application is told nothing. -/
  events_eq : after.events = before.events
  /-- What is queued confirms the next expected position. -/
  answers : before.Answers after

/-- A run of the peer's stream and its FIN are taken from a segment.  If the FIN was taken before,
the application is not told again. -/
structure Absorbs (before : Connection) (segment : Segment) (run : Bytes) (finished : Bool)
    (after : Connection) : Prop where
  /-- The position of the peer's stream is known. -/
  opened : after.phase.isOpening = false
  /-- The run fits in the window. -/
  length_le : run.length ≤ before.window.capacity
  /-- The window keeps its capacity. -/
  capacity_eq : after.window.capacity = before.window.capacity
  /-- What was taken counts as received. -/
  next_eq : after.recvNext = before.recvNext.advance (run.length + finished.toNat)
  /-- The application is told of what was taken. -/
  events_eq : after.events =
    before.events ++ AppEvent.tidings run (finished && !before.phase.peerFinished)
  /-- The next expected byte is missing if it was before. -/
  gap : before.window.buffered 0 = none → after.window.buffered 0 = none
  /-- If so, something is taken only if the segment brings it. -/
  cause : before.window.buffered 0 = none → run ≠ [] ∨ finished = true →
    segment.Brings before.recvNext
  /-- A FIN is taken only from a segment that has one. -/
  flagged : finished = true → segment.header.flags.fin = true
  /-- What is queued confirms the next expected position. -/
  answers : before.Answers after

theorem Answers.of_outbox_eq (outbox_eq : after.outbox = connection.outbox) :
    connection.Answers after :=
  ⟨[], by rw [outbox_eq, List.append_nil], by simp⟩

theorem Answers.of_encode {header : Header} {payload : Bytes}
    (outbox_eq : after.outbox = connection.outbox ++ [Segment.encode header payload])
    (ack_eq : header.ack = after.recvNext) : connection.Answers after := by
  refine ⟨_, outbox_eq, fun raw mem => ?_⟩
  obtain rfl := List.mem_singleton.mp mem
  rw [← ack_eq]
  exact Segment.confirms_encode header payload

theorem Meets.isOpening_after {segment : Segment} (meets : connection.Meets segment after) :
    after.phase.isOpening = false := by
  rcases meets.opened with phase_eq | phase_eq
  · rw [phase_eq]
    rfl
  · rw [phase_eq]
    rfl

theorem Rests.refl (connection : Connection) : connection.Rests connection :=
  ⟨rfl, rfl, Or.inr rfl, id, .of_outbox_eq rfl⟩

/-- An acknowledgment of what was never sent is ignored, and an old one brings its window only. -/
theorem takeAck_cases {ack : SeqNum} {advertised : UInt16}
    (taken : connection.takeAck ack advertised now = .ok after) :
    ack.After connection.sendNext ∧ after = connection ∨
      ¬ ack.After connection.sendNext ∧ ¬ ack.After connection.sendUnacked ∧
        after = { connection with sendWindow := connection.granted advertised } ∨
      ¬ ack.After connection.sendNext ∧ ack.After connection.sendUnacked ∧
        ∃ flight roundTrip phase,
          after = { connection with
            sendWindow := connection.granted advertised
            flight, roundTrip, phase
            sendUnacked := ack } ∧
          (phase = connection.phase ∨ phase = connection.phase.afterFinAcked) := by
  rw [takeAck] at taken
  split at taken
  next unsent => exact Or.inl ⟨unsent, (Except.ok.inj taken).symm⟩
  next sent =>
  refine Or.inr ?_
  simp only at taken
  split at taken
  next news =>
    obtain ⟨⟨flight, roundTrip⟩, -, taken⟩ := exists_of_bind_eq_ok taken
    obtain rfl := Except.ok.inj taken
    refine Or.inr ⟨sent, news, ?_⟩
    simp only [noteFinAcked]
    split
    · exact ⟨_, _, _, rfl, Or.inr rfl⟩
    · exact ⟨_, _, _, rfl, Or.inl rfl⟩
  next old => exact Or.inl ⟨sent, old, (Except.ok.inj taken).symm⟩

/-- An acknowledgment changes the sending side, and ends a connection at most. -/
theorem eq_of_takeAck {ack : SeqNum} {advertised : UInt16}
    (taken : connection.takeAck ack advertised now = .ok after) :
    ∃ sendWindow sendUnacked flight roundTrip phase,
      after = { connection with sendWindow, sendUnacked, flight, roundTrip, phase } ∧
        (phase = connection.phase ∨ phase = connection.phase.afterFinAcked) := by
  rcases takeAck_cases taken with
      ⟨-, rfl⟩ | ⟨-, -, rfl⟩ | ⟨-, -, flight, roundTrip, phase, rfl, moved⟩
  · exact ⟨_, _, _, _, _, rfl, Or.inl rfl⟩
  · exact ⟨_, _, _, _, _, rfl, Or.inl rfl⟩
  · exact ⟨_, _, _, _, _, rfl, moved⟩

/-- The payload of a segment yields a run, of which the application is told. -/
theorem eq_of_takePayload {seq : SeqNum} {payload : Bytes} {inWindow : Bool}
    (taken : connection.takePayload seq payload = .ok (inWindow, after)) :
    ∃ run window, connection.window.Yields seq payload run window ∧
      after = { connection with
        window
        events := connection.events ++ AppEvent.tidings run false } := by
  obtain ⟨⟨arrival, window⟩, received, taken⟩ := exists_of_bind_eq_ok taken
  have yields := ReceiveWindow.receive_yields received
  cases arrival with
  | stale | outOfWindow =>
      obtain ⟨-, rfl⟩ := Prod.mk.inj (Except.ok.inj taken)
      exact ⟨[], window, yields, by simp [AppEvent.tidings]⟩
  | accepted run =>
      obtain ⟨-, rfl⟩ := Prod.mk.inj (Except.ok.inj taken)
      exact ⟨run, window, yields, by simp [AppEvent.tidings]⟩

theorem eq_of_takePeerFin (connection : Connection)
    (synchronized : connection.phase.isSynchronized) :
    ∃ phase, phase.isOpening = false ∧
      connection.takePeerFin = { connection with
        phase
        window := connection.window.consumeFlag
        events := connection.events ++ AppEvent.tidings [] !connection.phase.peerFinished } := by
  have moves := Phase.isSome_afterPeerFin? synchronized
  rw [takePeerFin]
  simp only
  split
  next phase next_eq =>
    rw [next_eq] at moves
    exact ⟨phase, Phase.isOpening_afterPeerFin next_eq, by simp [AppEvent.tidings, ← moves]⟩
  next next_eq =>
    rw [next_eq] at moves
    exact ⟨connection.phase, Phase.isOpening_of_synchronized synchronized,
      by simp [AppEvent.tidings, ← moves]⟩

/-- How a segment is answered once its payload, if there is one, was taken within the window or not. -/
inductive Answered (connection : Connection) (segment : Segment) : Bool → Connection → Prop
  /-- A payload that lies beyond the window is not answered. -/
  | beyond : Answered connection segment false connection
  /-- The FIN behind the payload is at the expected position. -/
  | finished {length : Nat} : segment.header.flags.fin = true →
      ({} : Flags).span segment.payload.length = .ok length →
      segment.header.seq.advance length = connection.recvNext →
      Answered connection segment true connection.takePeerFin.sendAck
  /-- The FIN behind the payload is at another position. -/
  | misplaced : segment.header.flags.fin = true → Answered connection segment true connection.sendAck
  /-- There is a payload and no FIN. -/
  | data : segment.payload ≠ [] → segment.header.flags.fin = false →
      Answered connection segment true connection.sendAck
  /-- There is nothing to answer. -/
  | nothing : segment.payload = [] → segment.header.flags.fin = false →
      Answered connection segment true connection

/-- The part of taking content behind the payload answers the segment. -/
theorem Answered.of_rest {segment : Segment} {inWindow : Bool} (hasPayload : Bool)
    (hasPayload_eq : hasPayload = !segment.payload.isEmpty)
    (rest : (do
      if !inWindow then
        return connection
      else if segment.header.flags.fin then
        let length ← ({} : Flags).span segment.payload.length
        let connection :=
          if segment.header.seq.advance length = connection.recvNext then connection.takePeerFin
          else connection
        return connection.sendAck
      else
        return if hasPayload then connection.sendAck else connection) = .ok after) :
    connection.Answered segment inWindow after := by
  subst hasPayload_eq
  cases inWindow with
  | false =>
      obtain rfl := Except.ok.inj rest
      exact .beyond
  | true =>
      simp only [Bool.not_true, Bool.false_eq_true, if_false] at rest
      split at rest
      next fin =>
        obtain ⟨length, span_eq, rest⟩ := exists_of_bind_eq_ok rest
        obtain rfl := Except.ok.inj rest
        split
        next expected => exact .finished fin span_eq expected
        next => exact .misplaced fin
      next plain =>
        obtain rfl := Except.ok.inj rest
        have plain : segment.header.flags.fin = false := by simpa using plain
        split
        next payload => exact .data (by simpa using payload) plain
        next empty => exact .nothing (by simpa using empty) plain

/-- The payload of a segment is taken first, and the segment is answered then. -/
theorem answered_of_takeContent {segment : Segment}
    (taken : connection.takeContent segment = .ok after) :
    ∃ inWindow middle,
      (segment.payload = [] ∧ inWindow = true ∧ middle = connection ∨
        segment.payload ≠ [] ∧
          connection.takePayload segment.header.seq segment.payload = .ok (inWindow, middle)) ∧
      middle.Answered segment inWindow after := by
  rw [takeContent] at taken
  simp only at taken
  split at taken
  next payload =>
    obtain ⟨⟨inWindow, middle⟩, received, taken⟩ := exists_of_bind_eq_ok taken
    exact ⟨inWindow, middle, Or.inr ⟨by simpa using payload, received⟩,
      .of_rest true payload.symm taken⟩
  next empty =>
    exact ⟨true, connection, Or.inl ⟨by simpa using empty, rfl, rfl⟩,
      .of_rest false (by simpa using empty) taken⟩

/-- A repeated SYN is answered at most.  Otherwise the acknowledgment is taken first, if there is one,
and the content then, unless the acknowledgment ended the connection. -/
theorem takeSynchronized_cases {segment : Segment}
    (taken : connection.takeSynchronized segment now = .ok after) :
    segment.header.flags.syn = true ∧ (after = connection ∨ after = connection.sendAck) ∨
      segment.header.flags.syn = false ∧
        (connection.takeContent segment = .ok after ∨
          ∃ middle, connection.takeAck segment.header.ack segment.header.window now = .ok middle ∧
            (middle.phase = .terminated ∧ after = middle ∨
              middle.phase ≠ .terminated ∧ middle.takeContent segment = .ok after)) := by
  rw [takeSynchronized] at taken
  simp only at taken
  split at taken
  next syn =>
    obtain rfl := Except.ok.inj taken
    refine Or.inl ⟨syn, ?_⟩
    split
    · exact Or.inr rfl
    · exact Or.inl rfl
  next plain =>
  refine Or.inr ⟨by simpa using plain, ?_⟩
  split at taken
  next acks =>
    obtain ⟨middle, acknowledged, taken⟩ := exists_of_bind_eq_ok taken
    refine Or.inr ⟨middle, acknowledged, ?_⟩
    simp only [acks, Bool.true_and, isTerminated, decide_eq_true_eq] at taken
    split at taken
    next past =>
      obtain rfl := Except.ok.inj taken
      exact Or.inl ⟨past, rfl⟩
    next running => exact Or.inr ⟨running, taken⟩
  next silent =>
    simp only [silent, Bool.false_and, Bool.false_eq_true, if_false] at taken
    exact Or.inl taken

theorem Absorbs.of_yields {segment : Segment} {run : Bytes}
    (yields : connection.window.Yields segment.header.seq segment.payload run after.window)
    (plain : run ≠ [] → segment.header.flags.syn = false)
    (opened : after.phase.isOpening = false)
    (events_eq : after.events = connection.events ++ AppEvent.tidings run false)
    (answers : connection.Answers after) : connection.Absorbs segment run false after where
  opened := opened
  length_le := yields.length_le
  capacity_eq := yields.capacity_eq
  next_eq := yields.next_eq
  events_eq := events_eq
  gap := yields.gap
  cause gap taken := by
    have run_ne : run ≠ [] := by simpa using taken
    exact ⟨plain run_ne, Nat.lt_add_right _ (yields.cause gap run_ne)⟩
  flagged := by simp
  answers := answers

/-- So is the FIN behind the payload at the expected position. -/
theorem Absorbs.of_fin (synchronized : connection.phase.isSynchronized) {segment : Segment}
    (plain : segment.header.flags.syn = false) (fin : segment.header.flags.fin = true)
    {run : Bytes} {window : ReceiveWindow} {length : Nat}
    (yields : connection.window.Yields segment.header.seq segment.payload run window)
    (span_eq : ({} : Flags).span segment.payload.length = .ok length)
    (expected : segment.header.seq.advance length = window.next) :
    connection.Absorbs segment run true
      { connection with
        window
        events := connection.events ++ AppEvent.tidings run false }.takePeerFin.sendAck := by
  obtain ⟨phase, opened, finished_eq⟩ :=
    eq_of_takePeerFin { connection with
      window, events := connection.events ++ AppEvent.tidings run false } synchronized
  rw [finished_eq]
  refine ⟨opened, yields.length_le,
    (ReceiveWindow.capacity_consumeFlag window).trans yields.capacity_eq, ?_, ?_, fun _ => ?_,
    fun gap _ => ⟨plain, ?_⟩, fun _ => fin, .of_encode rfl rfl⟩
  · change window.next.advance 1 = _
    rw [yields.next_eq, SeqNum.advance_advance]
    rfl
  · simp [AppEvent.tidings, sendAck]
  · exact ReceiveWindow.buffered_consumeFlag window 0
  · rw [fin, Bool.toNat_true]
    by_cases nothing : run = []
    · -- the FIN itself is at the expected position
      obtain ⟨length_le, length_lt⟩ := Flags.length_le_of_span span_eq
      have distance := SeqNum.since_advance segment.header.seq (Nat.zero_le length)
        (by simpa using length_lt)
      have next_eq := yields.next_eq
      rw [nothing, List.length_nil, SeqNum.advance_zero] at next_eq
      rw [SeqNum.advance_zero, expected, next_eq] at distance
      rw [recvNext, distance]
      omega
    · exact Nat.lt_succ_of_lt (yields.cause gap nothing)

theorem takeContent_absorbs (synchronized : connection.phase.isSynchronized) {segment : Segment}
    (plain : segment.header.flags.syn = false)
    (taken : connection.takeContent segment = .ok after) :
    ∃ run finished, connection.Absorbs segment run finished after := by
  obtain ⟨inWindow, middle, received, answered⟩ := answered_of_takeContent taken
  obtain ⟨run, window, yields, rfl⟩ :
      ∃ run window,
        connection.window.Yields segment.header.seq segment.payload run window ∧
        middle = { connection with
          window
          events := connection.events ++ AppEvent.tidings run false } := by
    rcases received with ⟨-, -, rfl⟩ | ⟨-, received⟩
    · exact ⟨[], middle.window, .refl .., by simp [AppEvent.tidings]⟩
    · exact eq_of_takePayload received
  have opened := Phase.isOpening_of_synchronized synchronized
  have acknowledged : connection.Absorbs segment run false
      { connection with
        window
        events := connection.events ++ AppEvent.tidings run false }.sendAck :=
    .of_yields yields (fun _ => plain) opened rfl (.of_encode rfl rfl)
  have silent : connection.Absorbs segment run false
      { connection with
        window
        events := connection.events ++ AppEvent.tidings run false } :=
    .of_yields yields (fun _ => plain) opened rfl (.of_outbox_eq rfl)
  cases answered with
  | beyond | nothing => exact ⟨run, false, silent⟩
  | misplaced | data => exact ⟨run, false, acknowledged⟩
  | finished fin span_eq expected =>
      exact ⟨run, true, .of_fin synchronized plain fin yields span_eq expected⟩

theorem takeSynchronized_absorbs (synchronized : connection.phase.isSynchronized)
    {segment : Segment} (taken : connection.takeSynchronized segment now = .ok after) :
    ∃ run finished, connection.Absorbs segment run finished after := by
  -- nothing is taken from a SYN, nor behind an acknowledgment that ends the connection
  have idle {last : Connection} (opened : last.phase.isOpening = false)
      (window_eq : last.window = connection.window) (events_eq : last.events = connection.events)
      (answers : connection.Answers last) :
      ∃ run finished, connection.Absorbs segment run finished last := by
    refine ⟨[], false, .of_yields ?_ (absurd rfl) opened ?_ answers⟩
    · rw [window_eq]
      exact .refl ..
    · simp [events_eq, AppEvent.tidings]
  have opened := Phase.isOpening_of_synchronized synchronized
  rcases takeSynchronized_cases taken with ⟨-, rfl | rfl⟩ | ⟨plain, content | acknowledgment⟩
  · exact idle opened rfl rfl (.of_outbox_eq rfl)
  · exact idle opened rfl rfl (.of_encode rfl rfl)
  · exact takeContent_absorbs synchronized plain content
  · obtain ⟨middle, acknowledged, rest⟩ := acknowledgment
    obtain ⟨sendWindow, sendUnacked, flight, roundTrip, phase, rfl, moved⟩ :=
      eq_of_takeAck acknowledged
    rcases rest with ⟨past, rfl⟩ | ⟨running, content⟩
    · have past : phase = .terminated := past
      exact idle (by simp [past, Phase.isOpening]) rfl rfl (.of_outbox_eq rfl)
    · have running : phase ≠ .terminated := running
      obtain ⟨agreed, told⟩ :
          phase.isSynchronized ∧ phase.peerFinished = connection.phase.peerFinished := by
        rcases moved with rfl | rfl
        · exact ⟨synchronized, rfl⟩
        · exact ⟨(Phase.afterFinAcked_synchronized synchronized).resolve_left running,
            Phase.peerFinished_afterFinAcked running⟩
      obtain ⟨run, finished, absorbs⟩ := takeContent_absorbs agreed plain content
      exact ⟨run, finished, { absorbs with events_eq := by rw [absorbs.events_eq, told] }⟩

theorem takeClosed_cases (closed : connection.phase = .closed) {segment : Segment}
    (taken : connection.takeClosed segment now = .ok after) :
    connection.Rests after ∨ connection.Meets segment after := by
  rw [takeClosed] at taken
  simp only at taken
  split at taken
  · obtain ⟨sent, transmitted, taken⟩ := exists_of_bind_eq_ok taken
    obtain ⟨flight, sendNext, rfl⟩ := eq_of_transmit transmitted
    obtain rfl := Except.ok.inj taken
    exact Or.inr ⟨by rw [closed]; rfl, Or.inl rfl, rfl, rfl, .of_encode rfl rfl⟩
  · obtain rfl := Except.ok.inj taken
    exact Or.inl (.refl connection)

theorem takeSynSent_cases (waiting : connection.phase = .synSent) {segment : Segment}
    (taken : connection.takeSynSent segment now = .ok after) :
    connection.Rests after ∨ connection.Meets segment after := by
  rw [takeSynSent] at taken
  simp only at taken
  split at taken
  · obtain ⟨middle, acknowledged, taken⟩ := exists_of_bind_eq_ok taken
    obtain ⟨sendWindow, sendUnacked, flight, roundTrip, phase, rfl, -⟩ :=
      eq_of_takeAck acknowledged
    obtain rfl := Except.ok.inj taken
    exact Or.inr ⟨by rw [waiting]; rfl, Or.inr rfl, rfl, rfl, .of_encode rfl rfl⟩
  · obtain rfl := Except.ok.inj taken
    exact Or.inl (.refl connection)

theorem takeSynReceived_cases (waiting : connection.phase = .synReceived) {segment : Segment}
    (taken : connection.takeSynReceived segment now = .ok after) :
    connection.Rests after ∨ ∃ run finished, connection.Absorbs segment run finished after := by
  rw [takeSynReceived] at taken
  split at taken
  · obtain ⟨run, finished, absorbs⟩ := takeSynchronized_absorbs (by rfl) taken
    exact Or.inr ⟨run, finished, { absorbs with
      events_eq := by rw [absorbs.events_eq, waiting]; rfl }⟩
  · obtain rfl := Except.ok.inj taken
    exact Or.inl (.refl connection)

/-- What an operation makes of the receiving side. -/
inductive Learns (before : Connection) (operation : Operation) (after : Connection) : Prop
  /-- It stays as it was. -/
  | nothing : before.Rests after → Learns before operation after
  /-- The position of the peer's stream becomes known. -/
  | handshake {raw : Bytes} {segment : Segment} : operation = .receive raw →
      Segment.decode raw = .ok segment → before.Meets segment after → Learns before operation after
  /-- Content of the peer's stream is taken. -/
  | content {raw : Bytes} {segment : Segment} {run : Bytes} {finished : Bool} :
      operation = .receive raw → Segment.decode raw = .ok segment →
      before.phase.isOpening = false → before.phase ≠ .terminated →
      before.Absorbs segment run finished after → Learns before operation after

/-- Whatever bytes arrive, the receiving side learns from them by one of these ways. -/
theorem receive_learns {raw : Bytes} (received : connection.receive raw now = .ok after) :
    connection.Learns (.receive raw) after := by
  rw [receive] at received
  split at received
  · obtain rfl := Except.ok.inj received
    exact .nothing (.refl connection)
  next segment decoded =>
    rw [takeSegment] at received
    have meets (outcome : connection.Rests after ∨ connection.Meets segment after) :
        connection.Learns (.receive raw) after :=
      outcome.elim .nothing (.handshake rfl decoded)
    have agreed (synchronized : connection.phase.isSynchronized)
        (taken : connection.takeSynchronized segment now = .ok after) :
        connection.Learns (.receive raw) after := by
      obtain ⟨run, finished, absorbs⟩ := takeSynchronized_absorbs synchronized taken
      exact .content rfl decoded (Phase.isOpening_of_synchronized synchronized)
        (Phase.ne_terminated_of_synchronized synchronized) absorbs
    split at received
    · next closed => exact meets (takeClosed_cases closed received)
    · next waiting => exact meets (takeSynSent_cases waiting received)
    · next waiting =>
        rcases takeSynReceived_cases waiting received with rests | ⟨run, finished, absorbs⟩
        · exact .nothing rests
        · exact .content rfl decoded (by rw [waiting]; rfl) (by simp [waiting]) absorbs
    all_goals first
      | next phase_eq => exact agreed (by rw [phase_eq]; rfl) received
      | next =>
          obtain rfl := Except.ok.inj received
          exact .nothing (.refl connection)

theorem close_rests (closed : connection.close now = .ok after) : connection.Rests after := by
  rcases eq_of_close closed with rfl | ⟨-, rfl⟩ | ⟨opened, flight, sendNext, rfl⟩
  · exact .refl after
  · exact ⟨rfl, rfl, Or.inl rfl, fun _ => rfl, .of_outbox_eq rfl⟩
  · refine ⟨rfl, rfl, Or.inr ?_, fun past => by simp [past] at opened, .of_encode rfl rfl⟩
    rcases opened with phase_eq | phase_eq | phase_eq <;> simp [phase_eq, Phase.isOpening]

theorem expire_rests {result : Except Failure Unit}
    (expired : connection.expire now = .ok (result, after)) : connection.Rests after := by
  rcases expire_cases expired with ⟨-, rfl, -⟩ | ⟨-, rfl⟩ | ⟨segments, roundTrip, resent, -, rfl⟩
  · exact .refl _
  · exact ⟨rfl, rfl, Or.inl rfl, fun _ => rfl, .of_outbox_eq rfl⟩
  · refine ⟨rfl, rfl, Or.inr rfl, id, _, rfl, fun raw mem => ?_⟩
    obtain ⟨again, again_mem, rfl⟩ := List.mem_map.mp mem
    obtain ⟨earlier, -, sent⟩ := Outstanding.exists_of_mem_resent resent again_mem
    exact Segment.confirms_patchAck (Outstanding.resend_eq sent).2.2

/-- Every operation makes something of the receiving side by one of these ways. -/
theorem apply_learns {operation : Operation}
    (applied : connection.apply operation now = .ok after) :
    connection.Learns operation after := by
  cases operation with
  | openActive =>
      rw [apply, openActive] at applied
      split at applied
      · next closed =>
          obtain ⟨asking, transmitted, applied⟩ := exists_of_bind_eq_ok applied
          obtain ⟨flight, sendNext, rfl⟩ := eq_of_transmit transmitted
          obtain rfl := Except.ok.inj applied
          exact .nothing ⟨rfl, rfl, Or.inr (by rw [closed]; rfl), by simp [closed],
            .of_encode rfl rfl⟩
      · obtain rfl := Except.ok.inj applied
        exact .nothing (.refl connection)
  | listen =>
      obtain rfl := Except.ok.inj applied
      exact .nothing ⟨rfl, rfl, Or.inr rfl, id, .of_outbox_eq rfl⟩
  | send pending =>
      obtain ⟨⟨chunk, sent⟩, chunk_sent, applied⟩ := exists_of_bind_eq_ok applied
      obtain rfl := Except.ok.inj applied
      rcases (eq_of_sendChunk chunk_sent).2 with ⟨-, rfl⟩ | ⟨flight, sendNext, rfl⟩
      · exact .nothing (.refl sent)
      · exact .nothing ⟨rfl, rfl, Or.inr rfl, id, .of_encode rfl rfl⟩
  | close => exact .nothing (close_rests applied)
  | abort =>
      obtain rfl := Except.ok.inj applied
      exact .nothing ⟨rfl, rfl, Or.inl rfl, fun _ => rfl, .of_outbox_eq rfl⟩
  | expire =>
      obtain ⟨⟨result, expired⟩, done, applied⟩ := exists_of_bind_eq_ok applied
      obtain rfl := Except.ok.inj applied
      exact .nothing (expire_rests done)
  | receive raw => exact receive_learns applied

theorem Learns.answers {operation : Operation} (learns : connection.Learns operation after) :
    connection.Answers after := by
  cases learns with
  | nothing rests => exact rests.answers
  | handshake _ _ meets => exact meets.answers
  | content _ _ _ _ absorbs => exact absorbs.answers

end Connection
end ReliableTransport
