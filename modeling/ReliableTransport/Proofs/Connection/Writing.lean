import ReliableTransport.Proofs.Connection.Acknowledgment

/-!
# The sending side towards any peer

A peer may acknowledge every position that was sent, inside of a segment too, and may grant or take
back any window at any time.  The sending side has written a script and no longer carries an
acknowledged front of it.  The oldest unacknowledged position lies in the first entry that is still
carried, and the next one is never further away than the own bound on the window, apart from the
FIN.
-/

namespace ReliableTransport

open Script

namespace Connection

/-- The number of sequence numbers that can be outstanding without the FIN: the own bound on the
window, or the SYN. -/
def reach (connection : Connection) : Nat :=
  max 1 connection.config.maxSendWindow.toNat

/-- The sending side has written a script, carries all of it but a front, and was told that
everything before a position was received. -/
structure Writes (connection : Connection) (script acked : List Cargo) (settled : Nat) : Prop where
  /-- The script is in order. -/
  valid : Valid script
  /-- A front is no longer carried. -/
  acked_isPrefix : acked <+: script
  /-- It was received. -/
  acked_le : extent acked ≤ settled
  /-- Only what was written is acknowledged. -/
  settled_le : settled ≤ extent script
  /-- The entry behind the front is not acknowledged to its end. -/
  within : ∀ cargo rest, script = acked ++ cargo :: rest → settled < extent acked + cargo.length
  /-- The next position lies behind the script. -/
  next_eq : connection.sendNext = connection.isn.advance (extent script)
  /-- The oldest unacknowledged position is counted like the next one. -/
  unacked_eq : connection.sendUnacked = connection.isn.advance settled
  /-- While the connection lasts, the flight carries the rest. -/
  carries : connection.phase ≠ .terminated →
    ∃ rest, script = acked ++ rest ∧
      Flight.Carries connection.isn connection.config.receiveWindow (extent acked)
        connection.flight.segments rest
  /-- Nothing is outstanding after the end. -/
  cleared : connection.phase = .terminated → connection.flight.segments = []
  /-- The position of the FIN is known once it is written. -/
  finSeq_eq : connection.finSeq =
    if .fin ∈ script then some (connection.isn.advance (extent script - 1)) else none
  /-- The granted window is within the own bound. -/
  window_le : connection.sendWindow ≤ connection.config.maxSendWindow.toNat
  /-- What is outstanding is within reach, apart from the FIN. -/
  reach_le : extent script ≤ settled + connection.reach + (if .fin ∈ script then 1 else 0)
  /-- A chunk fits in one segment and in the own bound on the window. -/
  chunk_le : ∀ chunk, .data chunk ∈ script → chunk.length ≤ connection.config.maxSegmentSize ∧
    chunk.length ≤ connection.config.maxSendWindow.toNat

namespace Writes

variable {connection : Connection} {script acked : List Cargo} {settled : Nat}

theorem extent_le (writes : connection.Writes script acked settled) :
    extent script ≤ settled + 65536 := by
  have reach_le := writes.reach_le
  have bound := connection.config.maxSendWindow.toNat_lt
  simp only [reach] at reach_le
  split at reach_le <;> omega

theorem length_le (writes : connection.Writes script acked settled) {cargo : Cargo}
    (mem : cargo ∈ script) : cargo.length ≤ 65536 := by
  have bound := connection.config.maxSendWindow.toNat_lt
  cases cargo with
  | syn answers => simp
  | data chunk =>
      have chunk_le := writes.chunk_le chunk mem
      rw [Cargo.length_data]
      omega
  | fin => simp

theorem extent_rest_lt (writes : connection.Writes script acked settled) {rest : List Cargo}
    (script_eq : script = acked ++ rest) : extent rest < 2147483648 := by
  have extent_le := writes.extent_le
  cases rest with
  | nil => simp
  | cons cargo others =>
      have within := writes.within cargo others script_eq
      have length_le := writes.length_le (show cargo ∈ script by simp [script_eq])
      rw [script_eq, extent_append] at extent_le
      omega

theorem inFlight_eq (writes : connection.Writes script acked settled) :
    connection.inFlight = extent script - settled := by
  have extent_le := writes.extent_le
  rw [inFlight, writes.next_eq, writes.unacked_eq,
    SeqNum.since_advance _ writes.settled_le (by omega)]

theorem acked_eq_iff (writes : connection.Writes script acked settled) :
    acked = script ↔ settled = extent script := by
  constructor
  · rintro rfl
    exact Nat.le_antisymm writes.settled_le writes.acked_le
  · intro all
    obtain ⟨rest, script_eq⟩ := writes.acked_isPrefix
    cases rest with
    | nil => simpa using script_eq
    | cons cargo rest =>
        have within := writes.within cargo rest script_eq.symm
        rw [all, ← script_eq, extent_append, extent_cons] at within
        omega

theorem finAcked_iff (writes : connection.Writes script acked settled) :
    connection.finAcked = true ↔ .fin ∈ script ∧ acked = script := by
  have extent_le := writes.extent_le
  have settled_le := writes.settled_le
  rw [finAcked, writes.finSeq_eq, writes.unacked_eq, writes.acked_eq_iff]
  by_cases written : .fin ∈ script
  · obtain ⟨front, rfl, -⟩ := writes.valid.eq_append_fin written
    have extent_eq : extent (front ++ [.fin]) = extent front + 1 := by simp
    have before_iff := SeqNum.before_advance_iff connection.isn
      (i := extent (front ++ [.fin]) - 1) (j := settled) (by omega) (by omega)
    simp only [written, if_true, Option.any_some, decide_eq_true_eq, true_and, before_iff]
    omega
  · simp [written]

theorem follow (writes : connection.Writes script acked settled) {phase : Phase}
    (running : connection.phase ≠ .terminated)
    (cleared : phase = .terminated → connection.flight.segments = []) (listening : Bool)
    {sendWindow : Nat} (window_le : sendWindow ≤ connection.config.maxSendWindow.toNat)
    (window : ReceiveWindow) (outbox : List Bytes) (events : List AppEvent) :
    Writes { connection with phase, listening, sendWindow, window, outbox, events } script acked
      settled :=
  { writes with
    carries := fun _ => writes.carries running
    cleared
    window_le }

theorem abort (writes : connection.Writes script acked settled) :
    connection.abort.Writes script acked settled :=
  { writes with
    carries := fun running => absurd rfl running
    cleared := fun _ => rfl }

/-- Writing the next entry puts it into the flight and into the outbox. -/
theorem transmit (writes : connection.Writes script acked settled)
    (running : connection.phase ≠ .terminated) (cargo : Cargo) (valid : Valid (script ++ [cargo]))
    (reach_le : extent (script ++ [cargo]) ≤
      settled + connection.reach + (if .fin ∈ script ++ [cargo] then 1 else 0))
    (chunk_le : ∀ chunk, cargo = .data chunk →
      chunk.length ≤ connection.config.maxSegmentSize ∧
        chunk.length ≤ connection.config.maxSendWindow.toNat)
    {finSeq : Option SeqNum} (finSeq_eq : finSeq = if .fin ∈ script ++ [cargo] then
      some (connection.isn.advance (extent (script ++ [cargo]) - 1)) else none)
    {phase : Phase} (phase_ne : phase ≠ .terminated) (now : Nat) :
    ∃ flight,
      { connection with finSeq }.transmit cargo.flags cargo.payload now =
        .ok { connection with
          finSeq, flight
          sendNext := connection.sendNext.advance cargo.length
          outbox := connection.outbox ++
            [cargo.encode connection.sendNext connection.recvNext
              connection.config.receiveWindow] } ∧
      Writes
        { connection with
          finSeq, flight, phase
          sendNext := connection.sendNext.advance cargo.length
          outbox := connection.outbox ++
            [cargo.encode connection.sendNext connection.recvNext
              connection.config.receiveWindow] }
        (script ++ [cargo]) acked settled := by
  obtain ⟨rest, script_eq, carries⟩ := writes.carries running
  have length_pos := valid.length_pos (show cargo ∈ script ++ [cargo] by simp)
  have short : cargo.payload.length < 4294967294 := by
    have bound := connection.config.maxSendWindow.toNat_lt
    cases cargo with
    | syn answers => simp [Cargo.payload]
    | data chunk => exact lt_of_le_of_lt (chunk_le chunk rfl).2 (by omega)
    | fin => simp [Cargo.payload]
  have next_eq : connection.sendNext = connection.isn.advance (extent acked + extent rest) := by
    rw [writes.next_eq, script_eq, extent_append]
  let segment : Outstanding :=
    { raw := cargo.encode connection.sendNext connection.recvNext connection.config.receiveWindow
      seq := connection.sendNext, length := cargo.length, sentAt := now, retries := 0 }
  have carriesSegment : segment.Carries connection.isn connection.config.receiveWindow
      (extent acked + extent rest) cargo :=
    ⟨next_eq, rfl, connection.recvNext, by rw [← next_eq]⟩
  refine ⟨⟨connection.flight.segments ++ [segment]⟩, ?_, ?_⟩
  · have pushed := Flight.push_of_carries carries length_pos segment.raw now
    rw [← next_eq] at pushed
    exact transmit_eq (Cargo.span_eq short) length_pos pushed
  · refine ⟨valid, ?_, writes.acked_le, ?_, ?_, ?_, writes.unacked_eq, ?_, ?_, finSeq_eq,
      writes.window_le, reach_le, ?_⟩
    · exact writes.acked_isPrefix.trans (List.prefix_append script [cargo])
    · rw [extent_append]
      exact Nat.le_add_right_of_le writes.settled_le
    · -- the entry behind the front is old, or nothing was carried before
      intro first others split
      rw [script_eq, List.append_assoc, List.append_cancel_left_eq] at split
      cases rest with
      | nil =>
          obtain ⟨rfl, -⟩ := List.cons.inj split
          have all := writes.acked_eq_iff.mp (by simpa using script_eq.symm)
          rw [script_eq, List.append_nil] at all
          omega
      | cons entry rest =>
          obtain ⟨rfl, -⟩ := List.cons.inj split
          exact writes.within entry rest script_eq
    · simp [writes.next_eq, SeqNum.advance_advance]
    · intro _
      exact ⟨rest ++ [cargo], by rw [script_eq, List.append_assoc], carries.concat carriesSegment⟩
    · intro terminated
      exact absurd terminated phase_ne
    · intro chunk mem
      rcases List.mem_append.mp mem with mem | mem
      · exact writes.chunk_le chunk mem
      · exact chunk_le chunk (List.mem_singleton.mp mem).symm

/-- Sending pending bytes writes the next chunk, unless it is empty. -/
theorem sendChunk (writes : connection.Writes script acked settled)
    (opened : connection.canSend → script ≠ []) (pending : Bytes) (now : Nat) :
    connection.nextChunk pending = [] ∧ connection.sendChunk pending now = .ok ([], connection) ∨
      ∃ flight, connection.nextChunk pending ≠ [] ∧ connection.canSend ∧ .fin ∉ script ∧
        connection.sendChunk pending now =
          .ok (connection.nextChunk pending, { connection with
            flight
            sendNext := connection.sendNext.advance (connection.nextChunk pending).length
            outbox := connection.outbox ++
              [(Cargo.data (connection.nextChunk pending)).encode connection.sendNext
                connection.recvNext connection.config.receiveWindow] }) ∧
        Writes
          { connection with
            flight
            sendNext := connection.sendNext.advance (connection.nextChunk pending).length
            outbox := connection.outbox ++
              [(Cargo.data (connection.nextChunk pending)).encode connection.sendNext
                connection.recvNext connection.config.receiveWindow] }
          (script ++ [.data (connection.nextChunk pending)]) acked settled := by
  rw [Connection.sendChunk]
  by_cases empty : connection.nextChunk pending = []
  · left
    simp [empty]
    rfl
  right
  have canSend : connection.canSend := by
    by_contra cannot
    exact empty (by simp [nextChunk, cannot])
  have running : connection.phase ≠ .terminated := by
    intro ended
    simp [Connection.canSend, Phase.isSending, ended] at canSend
  have unfinished : .fin ∉ script := by
    intro written
    have finSeq_eq := writes.finSeq_eq
    simp only [Connection.canSend, Bool.and_eq_true, Option.isNone_iff_eq_none] at canSend
    simp [written, canSend.2] at finSeq_eq
  have chunk_le : (connection.nextChunk pending).length ≤
      min connection.usableWindow connection.config.maxSegmentSize := by
    rw [nextChunk, if_pos canSend]
    exact List.length_take_le _ _
  have nonempty : 0 < (connection.nextChunk pending).length := List.length_pos_iff.mpr empty
  have inFlight_eq := writes.inFlight_eq
  have window_le := writes.window_le
  have usable_eq : connection.usableWindow = connection.sendWindow - connection.inFlight := rfl
  obtain ⟨flight, transmitted, writes'⟩ := writes.transmit running _
    (writes.valid.data (opened canSend) unfinished empty)
    (by simp only [extent_append, extent_cons, extent_nil, Cargo.length_data, reach]; omega)
    (by rintro chunk same; obtain rfl := Cargo.data.inj same; omega)
    (show connection.finSeq = _ by rw [writes.finSeq_eq]; simp [unfinished]) running now
  simp only [Cargo.length_data] at transmitted writes'
  refine ⟨flight, empty, canSend, unfinished, ?_, writes'⟩
  rw [if_neg (by simpa using empty)]
  have transmitted : connection.transmit { ack := true } (connection.nextChunk pending) now = _ :=
    transmitted
  rw [transmitted]
  rfl

theorem sendFin (writes : connection.Writes script acked settled)
    (running : connection.phase ≠ .terminated) (opened : script ≠ []) (unfinished : .fin ∉ script)
    {phase : Phase} (phase_ne : phase ≠ .terminated) (now : Nat) :
    ∃ flight,
      connection.sendFin now =
        .ok { connection with
          finSeq := some connection.sendNext
          flight
          sendNext := connection.sendNext.advance 1
          outbox := connection.outbox ++
            [Cargo.fin.encode connection.sendNext connection.recvNext
              connection.config.receiveWindow] } ∧
      Writes
        { connection with
          finSeq := some connection.sendNext
          flight, phase
          sendNext := connection.sendNext.advance 1
          outbox := connection.outbox ++
            [Cargo.fin.encode connection.sendNext connection.recvNext
              connection.config.receiveWindow] }
        (script ++ [.fin]) acked settled := by
  have reach_le := writes.reach_le
  rw [if_neg unfinished] at reach_le
  refine writes.transmit running _ (writes.valid.fin opened unfinished) ?_ (by simp) ?_ phase_ne now
  · rw [if_pos (by simp), extent_append, extent_cons, extent_nil, Cargo.length_fin]
    omega
  · rw [if_pos (by simp), extent_append, writes.next_eq]
    rfl

theorem resend (writes : connection.Writes script acked settled) {now : Nat}
    {segments : List Outstanding}
    (done : connection.flight.segments.mapM (·.resend now connection.recvNext) = .ok segments)
    (roundTrip : RoundTrip) (outbox : List Bytes) :
    Writes { connection with flight := ⟨segments⟩, roundTrip, outbox } script acked settled ∧
      ∀ raw ∈ segments.map (·.raw), ∃ front cargo back, script = front ++ cargo :: back ∧
        raw = cargo.encode (connection.isn.advance (extent front)) connection.recvNext
          connection.config.receiveWindow := by
  by_cases running : connection.phase = .terminated
  · rw [writes.cleared running] at done
    obtain rfl := Except.ok.inj done
    refine ⟨{ writes with carries := ?_, cleared := fun _ => rfl }, by simp⟩
    intro still
    exact absurd running still
  · obtain ⟨rest, script_eq, carries⟩ := writes.carries running
    obtain ⟨carriesAgain, raws_eq, -⟩ := carries.mapM_resend done
    refine ⟨{ writes with carries := ?_, cleared := ?_ }, ?_⟩
    · intro _
      exact ⟨rest, script_eq, carriesAgain⟩
    · intro terminated
      exact absurd terminated running
    · intro raw mem
      rw [raws_eq] at mem
      obtain ⟨front, cargo, back, split, raw_eq⟩ := exists_of_mem_written mem
      exact ⟨front, cargo, back, script_eq.trans split, raw_eq⟩

/-- The sending side after it was told of a later position. -/
theorem acknowledged (writes : connection.Writes script acked settled) {sendWindow : Nat}
    {rest : List Outstanding} {acked' : List Cargo} {settled' : Nat} (roundTrip : RoundTrip)
    (window_le : sendWindow ≤ connection.config.maxSendWindow.toNat)
    (isFront : acked' <+: script) (acked_le : extent acked' ≤ settled')
    (later : settled ≤ settled') (settled_le : settled' ≤ extent script)
    (within : ∀ cargo back, script = acked' ++ cargo :: back →
      settled' < extent acked' + cargo.length)
    (carries : ∃ behind, script = acked' ++ behind ∧
      Flight.Carries connection.isn connection.config.receiveWindow (extent acked') rest behind)
    (running : connection.phase ≠ .terminated) :
    Writes
      { connection.acknowledged sendWindow rest roundTrip script acked' with
        sendUnacked := connection.isn.advance settled' }
      script acked' settled' where
  valid := writes.valid
  acked_isPrefix := isFront
  acked_le := acked_le
  settled_le := settled_le
  within := within
  next_eq := writes.next_eq
  unacked_eq := rfl
  carries _ := carries
  cleared terminated := by
    obtain ⟨behind, script_eq, carries⟩ := carries
    simp only [Connection.acknowledged] at terminated
    split at terminated
    · next done =>
        have none : behind = [] := by simpa [done.2] using script_eq
        exact carries.nil_iff.mpr none
    · exact absurd terminated running
  finSeq_eq := writes.finSeq_eq
  window_le := window_le
  reach_le := by
    have reach_le := writes.reach_le
    have same : reach
        { connection.acknowledged sendWindow rest roundTrip script acked' with
          sendUnacked := connection.isn.advance settled' } = connection.reach := rfl
    rw [same]
    omega
  chunk_le := writes.chunk_le

theorem acknowledge (writes : connection.Writes script acked settled)
    (running : connection.phase ≠ .terminated) {settled' : Nat} (later : settled ≤ settled')
    (settled_le : settled' ≤ extent script) (now : Nat) :
    ∃ gone rest acked', connection.flight.segments = gone ++ rest ∧ acked <+: acked' ∧
      connection.flight.acknowledge (connection.isn.advance settled') now connection.roundTrip =
        ((Flight.samples gone now).foldlM RoundTrip.observe connection.roundTrip).map
          (fun roundTrip => (gone.length, ⟨rest⟩, roundTrip)) ∧
      extent acked' ≤ settled' ∧
      (∀ cargo back, script = acked' ++ cargo :: back →
        settled' < extent acked' + cargo.length) ∧
      ∃ behind, script = acked' ++ behind ∧
        Flight.Carries connection.isn connection.config.receiveWindow (extent acked') rest
          behind := by
  obtain ⟨outstanding, script_eq, carries⟩ := writes.carries running
  have near := writes.extent_rest_lt script_eq
  have acked_le := writes.acked_le
  have total_eq : extent script = extent acked + extent outstanding := by
    rw [script_eq, extent_append]
  obtain ⟨front, back, rfl, front_le, within⟩ := exists_cut
    (show settled' - extent acked ≤ extent outstanding by omega)
  have positive : ∀ cargo ∈ front ++ back, 0 < cargo.length := by
    intro cargo mem
    exact writes.valid.length_pos (by rw [script_eq]; exact List.mem_append_right acked mem)
  obtain ⟨gone, rest, segments_eq, carriesBack, acknowledged_eq⟩ :=
    Flight.acknowledge_of_within carries positive near front_le (by omega) within now
      connection.roundTrip
  have position_eq : extent acked + (settled' - extent acked) = settled' := by omega
  have front_eq : extent (acked ++ front) = extent acked + extent front := extent_append _ _
  rw [← List.append_assoc] at script_eq
  rw [position_eq] at acknowledged_eq
  rw [← front_eq] at carriesBack
  refine ⟨gone, rest, acked ++ front, segments_eq, List.prefix_append _ _, acknowledged_eq,
    by omega, ?_, back, script_eq, carriesBack⟩
  intro cargo others split
  rw [script_eq, List.append_cancel_left_eq] at split
  have inside := within cargo others split
  omega

/-- An acknowledgment of a position that was never sent is ignored.  Any other one is news or old,
and fails only in the estimates. -/
theorem takeAck (writes : connection.Writes script acked settled)
    (running : connection.phase ≠ .terminated)
    (moved : acked = script → connection.phase.afterFinAcked = connection.phase)
    (ack : SeqNum) (advertised : UInt16) (now : Nat) :
    connection.takeAck ack advertised now = .ok connection ∨
      ∃ gone rest acked' settled', connection.flight.segments = gone ++ rest ∧ acked <+: acked' ∧
        connection.takeAck ack advertised now =
          ((Flight.samples gone now).foldlM RoundTrip.observe connection.roundTrip).map
            (fun roundTrip =>
              { connection.acknowledged (connection.granted advertised) rest roundTrip script
                  acked' with
                sendUnacked := connection.isn.advance settled' }) ∧
        ∀ roundTrip,
          Writes
            { connection.acknowledged (connection.granted advertised) rest roundTrip script
                acked' with
              sendUnacked := connection.isn.advance settled' }
            script acked' settled' := by
  have extent_le := writes.extent_le
  have granted_le : connection.granted advertised ≤ connection.config.maxSendWindow.toNat :=
    Nat.min_le_right _ _
  rw [Connection.takeAck]
  by_cases ahead : ack.After connection.sendNext
  · left
    rw [if_pos ahead]
    rfl
  rw [if_neg ahead]
  right
  by_cases news : ack.After connection.sendUnacked
  · have between := And.intro news ahead
    rw [writes.next_eq, writes.unacked_eq] at between
    obtain ⟨settled', rfl, later, settled_le⟩ := SeqNum.exists_advance_of_after connection.isn
      writes.settled_le (by omega) between.1 between.2
    obtain ⟨gone, rest, acked', segments_eq, isFront, acknowledged_eq, acked_le, within, carries⟩ :=
      writes.acknowledge running (Nat.le_of_lt later) settled_le now
    have behind := carries
    obtain ⟨back, script_eq, -⟩ := behind
    have writes' (roundTrip : RoundTrip) := writes.acknowledged roundTrip granted_le
      ⟨back, script_eq.symm⟩ acked_le (Nat.le_of_lt later) settled_le within carries running
    refine ⟨gone, rest, acked', settled', segments_eq, isFront, ?_, writes'⟩
    simp only [news, if_true]
    rw [acknowledged_eq]
    cases (Flight.samples gone now).foldlM RoundTrip.observe connection.roundTrip with
    | error fault => rfl
    | ok roundTrip =>
        -- the test for the own FIN reads only the counters, which the note of it leaves alone
        have finAcked_iff := (writes' roundTrip).finAcked_iff
        refine congrArg Except.ok ?_
        by_cases done : .fin ∈ script ∧ acked' = script
        · refine (if_pos (finAcked_iff.mpr done)).trans ?_
          simp only [Connection.acknowledged, if_pos done]
        · refine (if_neg (mt finAcked_iff.mp done)).trans ?_
          simp only [Connection.acknowledged, if_neg done]
  · have unchanged (roundTrip : RoundTrip) :
        { connection.acknowledged (connection.granted advertised) connection.flight.segments
            roundTrip script acked with
          sendUnacked := connection.isn.advance settled } =
          { connection with sendWindow := connection.granted advertised, roundTrip } := by
      have phase_eq : (if .fin ∈ script ∧ acked = script then connection.phase.afterFinAcked
          else connection.phase) = connection.phase := by
        split
        · next done => exact moved done.2
        · rfl
      rw [Connection.acknowledged, phase_eq, ← writes.unacked_eq]
    refine ⟨[], connection.flight.segments, acked, settled, rfl, List.prefix_refl acked, ?_,
      fun roundTrip => writes.acknowledged roundTrip granted_le writes.acked_isPrefix
        writes.acked_le (Nat.le_refl _) writes.settled_le writes.within
        (writes.carries running) running⟩
    simp only [news, if_false]
    exact congrArg Except.ok (unchanged connection.roundTrip).symm

end Writes
end Connection
end ReliableTransport
