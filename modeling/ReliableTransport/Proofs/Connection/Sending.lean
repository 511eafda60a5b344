import ReliableTransport.Connection.Basic
import ReliableTransport.Proofs.Flight

/-!
# The sending side of a connection

The sending side has written a script and knows that a front of it was received.  Its counters are
the extents of the two, the flight carries the rest, and no chunk of the stream reaches beyond what
the peer can buffer behind the known front.
-/

namespace ReliableTransport

open Script

theorem Flags.span_eq {flags : Flags} {length : Nat} (short : length < 4294967294) :
    flags.span length = .ok (length + flags.syn.toNat + flags.fin.toNat) := by
  have syn_le := Bool.toNat_le flags.syn
  have fin_le := Bool.toNat_le flags.fin
  have clipped : min length (UInt32.size - 1) = length := by
    simp only [UInt32.size]
    omega
  have countable : length + flags.syn.toNat + flags.fin.toNat < UInt32.size := by
    simp only [UInt32.size]
    omega
  simp only [span]
  rw [clipped]
  exact if_pos countable

namespace Cargo

theorem span_eq {cargo : Cargo} (short : cargo.payload.length < 4294967294) :
    cargo.flags.span cargo.payload.length = .ok cargo.length := by
  rw [Flags.span_eq short]
  cases cargo with
  | syn answers => rfl
  | data chunk => simp [flags, payload]
  | fin => rfl

end Cargo

namespace Connection

theorem transmit_eq {connection : Connection} {flags : Flags} {payload : Bytes}
    {length now : Nat} {flight : Flight} (span_eq : flags.span payload.length = .ok length)
    (length_pos : 0 < length)
    (pushed : connection.flight.push (Segment.encode (connection.header flags) payload)
      connection.sendNext length now = .ok flight) :
    connection.transmit flags payload now =
      .ok { connection with
        flight
        sendNext := connection.sendNext.advance length
        outbox := connection.outbox ++ [Segment.encode (connection.header flags) payload] } := by
  rw [transmit, span_eq]
  simp only [bind, Except.bind]
  rw [if_neg (by omega), pushed]
  rfl

theorem eq_of_create {config : Config} {isn : SeqNum} {connection : Connection}
    (created : create config isn = .ok connection) :
    ∃ window, ReceiveWindow.create config.receiveWindow.toNat ⟨0⟩ = .ok window ∧
      connection =
        { config, isn, window
          phase := .closed
          listening := false
          sendUnacked := isn
          sendNext := isn
          sendWindow := 0
          finSeq := none
          roundTrip := RoundTrip.initial config
          flight := Flight.empty
          outbox := []
          events := [] } := by
  obtain ⟨window, opened, created⟩ := Fault.exists_of_bind_eq_ok created
  exact ⟨window, opened, (Except.ok.inj created).symm⟩

theorem eq_of_transmit {connection after : Connection} {flags : Flags} {payload : Bytes}
    {now : Nat} (done : connection.transmit flags payload now = .ok after) :
    ∃ flight sendNext, after =
      { connection with
        flight, sendNext
        outbox := connection.outbox ++ [Segment.encode (connection.header flags) payload] } := by
  obtain ⟨length, -, done⟩ := Fault.exists_of_bind_eq_ok done
  split at done
  · obtain rfl := Except.ok.inj done
    exact ⟨_, _, rfl⟩
  · obtain ⟨flight, -, done⟩ := Fault.exists_of_bind_eq_ok done
    obtain rfl := Except.ok.inj done
    exact ⟨_, _, rfl⟩

/-- What is sent of pending bytes is the next chunk, in one segment unless it is empty. -/
theorem eq_of_sendChunk {connection after : Connection} {pending chunk : Bytes} {now : Nat}
    (sent : connection.sendChunk pending now = .ok (chunk, after)) :
    chunk = connection.nextChunk pending ∧
      (chunk = [] ∧ after = connection ∨ ∃ flight sendNext, after =
        { connection with
          flight, sendNext
          outbox := connection.outbox ++
            [Segment.encode (connection.header { ack := true }) chunk] }) := by
  rw [sendChunk] at sent
  split at sent
  · next empty =>
      obtain ⟨rfl, rfl⟩ := Prod.mk.inj (Except.ok.inj sent)
      exact ⟨(List.isEmpty_iff.mp empty).symm, Or.inl ⟨rfl, rfl⟩⟩
  · obtain ⟨transmitted, done, sent⟩ := Fault.exists_of_bind_eq_ok sent
    obtain ⟨rfl, rfl⟩ := Prod.mk.inj (Except.ok.inj sent)
    exact ⟨rfl, Or.inr (eq_of_transmit done)⟩

theorem isSending_of_canSend {connection : Connection} (can : connection.canSend = true) :
    connection.phase.isSending = true := by
  simp only [canSend, Bool.and_eq_true] at can
  exact can.1

theorem nextChunk_of_not_canSend {connection : Connection} (cannot : connection.canSend = false)
    (pending : Bytes) : connection.nextChunk pending = [] := by
  rw [nextChunk, cannot]
  rfl

theorem sendChunk_of_nil {connection : Connection} {pending : Bytes}
    (nothing : connection.nextChunk pending = []) (now : Nat) :
    connection.sendChunk pending now = .ok ([], connection) := by
  rw [sendChunk, nothing]
  rfl

theorem flushWithin_of_nil {connection : Connection} {pending : Bytes}
    (nothing : connection.nextChunk pending = []) (rounds now : Nat) :
    connection.flushWithin rounds pending now = .ok ([], pending, connection) := by
  cases rounds with
  | zero => rfl
  | succ rounds =>
      rw [flushWithin, sendChunk_of_nil nothing]
      rfl

theorem flushWithin_of_not_canSend {connection : Connection} (cannot : connection.canSend = false)
    (rounds : Nat) (pending : Bytes) (now : Nat) :
    connection.flushWithin rounds pending now = .ok ([], pending, connection) :=
  flushWithin_of_nil (nextChunk_of_not_canSend cannot pending) rounds now

theorem flushWithin_cases {connection after : Connection} {rounds now : Nat} {pending rest : Bytes}
    {chunks : List Bytes}
    (flushed : connection.flushWithin (rounds + 1) pending now = .ok (chunks, rest, after)) :
    (connection.nextChunk pending = [] ∧ rest = pending ∧ after = connection) ∨
      connection.nextChunk pending ≠ [] ∧ ∃ middle later,
        connection.sendChunk pending now = .ok (connection.nextChunk pending, middle) ∧
          middle.flushWithin rounds (pending.drop (connection.nextChunk pending).length) now =
            .ok (later, rest, after) := by
  by_cases nothing : connection.nextChunk pending = []
  · rw [flushWithin, sendChunk_of_nil nothing] at flushed
    obtain ⟨-, same⟩ := Prod.mk.inj (Except.ok.inj flushed)
    obtain ⟨rfl, rfl⟩ := Prod.mk.inj same
    exact Or.inl ⟨nothing, rfl, rfl⟩
  · obtain ⟨⟨chunk, middle⟩, sent, flushed⟩ := Fault.exists_of_bind_eq_ok flushed
    obtain ⟨rfl, -⟩ := eq_of_sendChunk sent
    simp only [List.isEmpty_iff, nothing, if_false] at flushed
    obtain ⟨⟨later, rest, last⟩, again, flushed⟩ := Fault.exists_of_bind_eq_ok flushed
    obtain ⟨-, same⟩ := Prod.mk.inj (Except.ok.inj flushed)
    obtain ⟨rfl, rfl⟩ := Prod.mk.inj same
    exact Or.inr ⟨nothing, middle, later, sent, again⟩

/-- Closing sends the FIN where the own direction is open, and ends a connection before the
handshake. -/
theorem eq_of_close {connection after : Connection} {now : Nat}
    (closed : connection.close now = .ok after) :
    after = connection ∨
      ((connection.phase = .closed ∨ connection.phase = .synSent) ∧ after = connection.abort) ∨
      (connection.phase = .synReceived ∨ connection.phase = .established ∨
        connection.phase = .closeWait) ∧
        ∃ flight sendNext, after =
          { connection with
            flight, sendNext
            finSeq := some connection.sendNext
            phase := if connection.phase = .closeWait then .lastAck else .finWait1
            outbox := connection.outbox ++
              [Segment.encode (connection.header { fin := true, ack := true }) []] } := by
  rw [close] at closed
  split at closed
  · next phase_eq => exact Or.inr (Or.inl ⟨Or.inl phase_eq, (Except.ok.inj closed).symm⟩)
  · next phase_eq => exact Or.inr (Or.inl ⟨Or.inr phase_eq, (Except.ok.inj closed).symm⟩)
  iterate 3
    · next phase_eq =>
        obtain ⟨fin, transmitted, closed⟩ := Fault.exists_of_bind_eq_ok closed
        obtain rfl := Except.ok.inj closed
        obtain ⟨flight, sendNext, rfl⟩ := eq_of_transmit transmitted
        exact Or.inr (Or.inr ⟨by simp [phase_eq], flight, sendNext, by simp [phase_eq, header,
          recvNext]⟩)
  all_goals exact Or.inl (Except.ok.inj closed).symm

theorem resend_cases {connection after : Connection} {now : Nat}
    (done : connection.resend now = .ok after) :
    ∃ segments roundTrip,
      connection.flight.segments.mapM (·.resend now connection.recvNext) = .ok segments ∧
        after =
          { connection with
            flight := ⟨segments⟩
            roundTrip
            outbox := connection.outbox ++ segments.map (·.raw) } := by
  obtain ⟨flight, resent, done⟩ := Fault.exists_of_bind_eq_ok done
  obtain ⟨segments, segments_eq, flight_eq⟩ := Fault.exists_of_bind_eq_ok resent
  obtain rfl := Except.ok.inj flight_eq
  split at done
  · obtain ⟨roundTrip, -, done⟩ := Fault.exists_of_bind_eq_ok done
    exact ⟨segments, roundTrip, segments_eq, (Except.ok.inj done).symm⟩
  · exact ⟨segments, connection.roundTrip, segments_eq, (Except.ok.inj done).symm⟩

/-- An expired deadline finds nothing outstanding, ends the connection or resends. -/
theorem expire_cases {connection after : Connection} {now : Nat} {result : Except Failure Unit}
    (done : connection.expire now = .ok (result, after)) :
    (result = .ok () ∧ after = connection ∧ connection.flight.segments = []) ∨
      (result = (if connection.onlyFinalFin then .ok () else .error .timedOut) ∧
        after = connection.abort) ∨
      ∃ segments roundTrip,
        connection.flight.segments.mapM (·.resend now connection.recvNext) = .ok segments ∧
          result = .ok () ∧
          after =
            { connection with
              flight := ⟨segments⟩
              roundTrip
              outbox := connection.outbox ++ segments.map (·.raw) } := by
  rw [expire] at done
  split at done
  · next empty =>
      obtain ⟨rfl, rfl⟩ := Prod.mk.inj (Except.ok.inj done)
      exact Or.inl ⟨rfl, rfl, by simpa [Flight.isEmpty] using empty⟩
  split at done
  · obtain ⟨rfl, rfl⟩ := Prod.mk.inj (Except.ok.inj done)
    exact Or.inr (Or.inl ⟨rfl, rfl⟩)
  · obtain ⟨again, resent, done⟩ := Fault.exists_of_bind_eq_ok done
    obtain ⟨rfl, rfl⟩ := Prod.mk.inj (Except.ok.inj done)
    obtain ⟨segments, roundTrip, segments_eq, rfl⟩ := resend_cases resent
    exact Or.inr (Or.inr ⟨segments, roundTrip, segments_eq, rfl, rfl⟩)

/-- The sending side of a connection has written a script, of which a front is acknowledged. -/
structure Sends (connection : Connection) (room : Nat) (script acked : List Cargo) : Prop where
  /-- The script is in order. -/
  valid : Valid script
  /-- Only what was written is acknowledged. -/
  acked_isPrefix : acked <+: script
  /-- The next position lies behind the script. -/
  next_eq : connection.sendNext = connection.isn.advance (extent script)
  /-- The oldest unacknowledged position lies behind the acknowledged front. -/
  unacked_eq : connection.sendUnacked = connection.isn.advance (extent acked)
  /-- While the connection lasts, the flight carries what is not acknowledged. -/
  carries : connection.phase ≠ .terminated →
    ∃ rest, script = acked ++ rest ∧
      Flight.Carries connection.isn connection.config.receiveWindow (extent acked)
        connection.flight.segments rest
  /-- Nothing is outstanding after the end. -/
  settled : connection.phase = .terminated → connection.flight.segments = []
  /-- The position of the FIN is known once it is written. -/
  finSeq_eq : connection.finSeq =
    if .fin ∈ script then some (connection.isn.advance (extent script - 1)) else none
  /-- The peer never grants more than it can buffer. -/
  window_le : connection.sendWindow ≤ room
  /-- Every chunk fits in the buffer of the peer. -/
  fits : ∀ front chunk back, script = front ++ .data chunk :: back →
    extent front + chunk.length ≤ extent acked + room

namespace Sends

variable {connection : Connection} {room : Nat} {script acked : List Cargo}

theorem inFlight_eq (sends : connection.Sends room script acked)
    (near : extent script < 2147483648) :
    connection.inFlight = extent script - extent acked := by
  have := extent_le_of_isPrefix sends.acked_isPrefix
  rw [inFlight, sends.next_eq, sends.unacked_eq, SeqNum.since_advance _ this (by omega)]

/-- Writing the next entry puts it into the flight and into the outbox. -/
theorem transmit (sends : connection.Sends room script acked)
    (running : connection.phase ≠ .terminated) {cargo : Cargo} (valid : Valid (script ++ [cargo]))
    (fits : extent script + cargo.payload.length ≤ extent acked + room ∨ cargo.payload = [])
    (short : cargo.payload.length < 4294967294) {finSeq : Option SeqNum}
    (finSeq_eq : finSeq = if .fin ∈ script ++ [cargo] then
      some (connection.isn.advance (extent (script ++ [cargo]) - 1)) else none)
    {phase : Phase} (phase_ne : phase ≠ .terminated) (now : Nat) :
    ∃ flight,
      { connection with finSeq }.transmit cargo.flags cargo.payload now =
        .ok { connection with
          finSeq, flight
          sendNext := connection.sendNext.advance cargo.length
          outbox := connection.outbox ++
            [cargo.encode connection.sendNext connection.recvNext
              connection.config.receiveWindow] } ∧
      Sends
        { connection with
          finSeq, flight, phase
          sendNext := connection.sendNext.advance cargo.length
          outbox := connection.outbox ++
            [cargo.encode connection.sendNext connection.recvNext
              connection.config.receiveWindow] }
        room (script ++ [cargo]) acked := by
  obtain ⟨rest, script_eq, carries⟩ := sends.carries running
  have length_pos := valid.length_pos (show cargo ∈ script ++ [cargo] by simp)
  have next_eq : connection.sendNext = connection.isn.advance (extent acked + extent rest) := by
    rw [sends.next_eq, script_eq, extent_append]
  let segment : Outstanding :=
    { raw := cargo.encode connection.sendNext connection.recvNext connection.config.receiveWindow
      seq := connection.sendNext, length := cargo.length, sentAt := now, retries := 0 }
  have carriesSegment : segment.Carries connection.isn connection.config.receiveWindow
      (extent acked + extent rest) cargo :=
    ⟨next_eq, rfl, connection.recvNext, by rw [← next_eq]⟩
  refine ⟨⟨connection.flight.segments ++ [segment]⟩, ?_, ?_⟩
  · have pushed := Flight.push_of_carries carries length_pos segment.raw now
    rw [← next_eq] at pushed
    exact transmit_eq (Cargo.span_eq short) length_pos pushed
  · refine ⟨valid, ?_, ?_, sends.unacked_eq, ?_, ?_, finSeq_eq, sends.window_le, ?_⟩
    · exact sends.acked_isPrefix.trans (List.prefix_append script [cargo])
    · simp [sends.next_eq, SeqNum.advance_advance]
    · intro _
      exact ⟨rest ++ [cargo], by rw [script_eq, List.append_assoc], carries.concat carriesSegment⟩
    · intro terminated
      exact absurd terminated phase_ne
    · intro front chunk back split
      rcases List.eq_nil_or_concat back with rfl | ⟨back, last, rfl⟩
      · obtain ⟨rfl, last_eq⟩ := List.append_inj' split rfl
        obtain rfl : cargo = .data chunk := by simpa using last_eq
        rcases fits with fits | empty
        · exact fits
        · simp only [Cargo.payload] at empty
          simp [empty] at length_pos
      · rw [List.concat_eq_append, ← List.cons_append, ← List.append_assoc] at split
        obtain ⟨rfl, -⟩ := List.append_inj' split rfl
        exact sends.fits front chunk back rfl

/-- Sending pending bytes writes the next chunk, unless it is empty. -/
theorem sendChunk (sends : connection.Sends room script acked)
    (near : extent script < 2147483648)
    (config_valid : connection.config.Valid) (opened : connection.canSend → script ≠ [])
    (pending : Bytes) (now : Nat) :
    connection.sendChunk pending now = .ok ([], connection) ∨
      ∃ chunk flight, chunk ≠ [] ∧ connection.canSend ∧ .fin ∉ script ∧
        connection.sendChunk pending now =
          .ok (chunk, { connection with
            flight
            sendNext := connection.sendNext.advance chunk.length
            outbox := connection.outbox ++
              [(Cargo.data chunk).encode connection.sendNext connection.recvNext
                connection.config.receiveWindow] }) ∧
        Sends
          { connection with
            flight
            sendNext := connection.sendNext.advance chunk.length
            outbox := connection.outbox ++
              [(Cargo.data chunk).encode connection.sendNext connection.recvNext
                connection.config.receiveWindow] }
          room (script ++ [.data chunk]) acked := by
  rw [Connection.sendChunk]
  by_cases empty : connection.nextChunk pending = []
  · left
    simp [empty]
    rfl
  right
  have canSend : connection.canSend := by
    by_contra cannot
    exact empty (by simp [nextChunk, cannot])
  have running : connection.phase ≠ .terminated := by
    intro ended
    simp [Connection.canSend, Phase.isSending, ended] at canSend
  have unfinished : .fin ∉ script := by
    intro written
    have := sends.finSeq_eq
    simp only [Connection.canSend, Bool.and_eq_true, Option.isNone_iff_eq_none] at canSend
    simp [written, canSend.2] at this
  have valid : Valid (script ++ [.data (connection.nextChunk pending)]) :=
    sends.valid.data (opened canSend) unfinished empty
  have clipped : (connection.nextChunk pending).length ≤
      min connection.usableWindow connection.config.maxSegmentSize := by
    rw [nextChunk, if_pos canSend]
    exact List.length_take_le _ _
  have nonempty : 0 < (connection.nextChunk pending).length := List.length_pos_iff.mpr empty
  have inFlight_eq := sends.inFlight_eq near
  have window_le := sends.window_le
  have acked_le := extent_le_of_isPrefix sends.acked_isPrefix
  have size_le := ((Config.valid_iff connection.config).mp config_valid).2.1
  have usable_eq : connection.usableWindow = connection.sendWindow - connection.inFlight := rfl
  have largest : Segment.maxPayloadLength = 65515 := rfl
  obtain ⟨flight, transmitted, sends'⟩ := sends.transmit running valid
    (Or.inl (by simp only [Cargo.payload]; omega)) (by simp only [Cargo.payload]; omega)
    (show connection.finSeq = _ by rw [sends.finSeq_eq]; simp [unfinished]) running now
  simp only [Cargo.length_data] at transmitted sends'
  refine ⟨connection.nextChunk pending, flight, empty, canSend, unfinished, ?_, sends'⟩
  rw [if_neg (by simpa using empty)]
  have transmitted : connection.transmit { ack := true } (connection.nextChunk pending) now = _ :=
    transmitted
  rw [transmitted]
  rfl

/-- Sending the FIN writes the end of the script. -/
theorem sendFin (sends : connection.Sends room script acked)
    (running : connection.phase ≠ .terminated) (opened : script ≠ []) (unfinished : .fin ∉ script)
    {phase : Phase} (phase_ne : phase ≠ .terminated) (now : Nat) :
    ∃ flight,
      connection.sendFin now =
        .ok { connection with
          finSeq := some connection.sendNext
          flight
          sendNext := connection.sendNext.advance 1
          outbox := connection.outbox ++
            [Cargo.fin.encode connection.sendNext connection.recvNext
              connection.config.receiveWindow] } ∧
      Sends
        { connection with
          finSeq := some connection.sendNext
          flight, phase
          sendNext := connection.sendNext.advance 1
          outbox := connection.outbox ++
            [Cargo.fin.encode connection.sendNext connection.recvNext
              connection.config.receiveWindow] }
        room (script ++ [.fin]) acked := by
  refine sends.transmit running (sends.valid.fin opened unfinished) (Or.inr rfl) (by decide) ?_
    phase_ne now
  rw [if_pos (by simp), extent_append, sends.next_eq]
  rfl

theorem abort (sends : connection.Sends room script acked) :
    connection.abort.Sends room script acked :=
  { sends with
    carries := fun running => absurd rfl running
    settled := fun _ => rfl }

theorem resend (sends : connection.Sends room script acked) {now : Nat}
    {segments : List Outstanding}
    (done : connection.flight.segments.mapM (·.resend now connection.recvNext) = .ok segments)
    (roundTrip : RoundTrip) (outbox : List Bytes) :
    Sends { connection with flight := ⟨segments⟩, roundTrip, outbox } room script acked ∧
      (∀ segment ∈ segments, 0 < segment.retries) ∧
      (connection.phase ≠ .terminated → ∃ rest, script = acked ++ rest ∧
        segments.map (·.raw) =
          written connection.isn connection.recvNext connection.config.receiveWindow
            (extent acked) rest) := by
  by_cases running : connection.phase = .terminated
  · rw [sends.settled running] at done
    obtain rfl := Except.ok.inj done
    refine ⟨{ sends with carries := ?_, settled := fun _ => rfl }, by simp, ?_⟩
    · intro still
      exact absurd running still
    · intro still
      exact absurd running still
  · obtain ⟨rest, script_eq, carries⟩ := sends.carries running
    obtain ⟨carriesAgain, raws_eq, retries_pos⟩ := carries.mapM_resend done
    refine ⟨{ sends with carries := ?_, settled := ?_ }, retries_pos, ?_⟩
    · intro _
      exact ⟨rest, script_eq, carriesAgain⟩
    · intro terminated
      exact absurd terminated running
    · intro _
      exact ⟨rest, script_eq, raws_eq⟩

end Sends
end Connection
end ReliableTransport
