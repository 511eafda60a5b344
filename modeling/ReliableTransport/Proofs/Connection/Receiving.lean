import ReliableTransport.Proofs.Connection.Acknowledgment
import ReliableTransport.Proofs.Dialogue
import ReliableTransport.Proofs.Reassembly

/-!
# The receiving side of a connection

A connection follows a peer whose segments carry the peer's script.  Each segment of an agreed
connection that carries an entry of the script either brings the received front forward or changes
nothing, and is answered by one acknowledgment of the front.
-/

namespace ReliableTransport

open Script

namespace Connection

/-- A connection with a ledger follows a peer, where some events were heard before. -/
structure Follows (connection : Connection) (heard : List AppEvent) (ledger : Ledger)
    (peer : Party) : Prop where
  /-- It sends to the peer. -/
  sends : connection.Sends peer.window.toNat ledger.script ledger.acked
  /-- Its phase fits to what was written and received. -/
  admits : connection.phase.Admits ledger
  /-- It buffers as much as it advertises. -/
  capacity_eq : connection.window.capacity = connection.config.receiveWindow.toNat
  /-- What it knows to be received was received. -/
  acked_isPrefix : ledger.acked <+: peer.ledger.received
  /-- What it received was written. -/
  received_isPrefix : ledger.received <+: peer.ledger.script
  /-- Its window lies behind what was received. -/
  receives : ledger.received ≠ [] →
    connection.window.Receives peer.isn peer.ledger.script ledger.received
  /-- Its application was told of what was received. -/
  reports : Reports (heard ++ connection.events) ledger.received

/-- The script of a peer is in order, and its chunks fit behind a received front. -/
structure Fits (connection : Connection) (ledger : Ledger) (peer : Party) : Prop where
  /-- The script is in order. -/
  valid : Valid peer.ledger.script
  /-- The script is short. -/
  near : extent peer.ledger.script < 2147483648
  /-- No chunk reaches behind the window. -/
  within : ChunksWithin peer.ledger.script (extent ledger.received + connection.window.capacity)

namespace Sends

variable {connection : Connection} {room : Nat} {script acked : List Cargo}

theorem segments_eq_nil (sends : connection.Sends room script acked)
    (running : connection.phase ≠ .terminated) (all : acked = script) :
    connection.flight.segments = [] := by
  obtain ⟨rest, script_eq, carries⟩ := sends.carries running
  rw [carries.nil_iff]
  simpa [all] using script_eq

/-- What the peer writes does not concern the sending side, unless it ends the connection. -/
theorem follow (sends : connection.Sends room script acked) {phase : Phase}
    (running : connection.phase ≠ .terminated)
    (settled : phase = .terminated → connection.flight.segments = []) (window : ReceiveWindow)
    (outbox : List Bytes) (events : List AppEvent) :
    Sends { connection with window, phase, outbox, events } room script acked :=
  { sends with
    carries := fun _ => sends.carries running
    settled := settled }

end Sends

namespace Follows

variable {connection : Connection} {heard : List AppEvent} {ledger : Ledger} {peer later : Party}

theorem mono (follows : connection.Follows heard ledger peer) (continues : peer.Continues later) :
    connection.Follows heard ledger later where
  sends := by
    rw [continues.window_eq]
    exact follows.sends
  admits := follows.admits
  capacity_eq := follows.capacity_eq
  acked_isPrefix := follows.acked_isPrefix.trans continues.received
  received_isPrefix := follows.received_isPrefix.trans continues.script
  receives received_ne := by
    rw [continues.isn_eq]
    exact (follows.receives received_ne).mono continues.script
  reports := follows.reports

end Follows

/-- The bytes of an acknowledgment of everything received so far. -/
def acknowledgment (connection : Connection) : Bytes :=
  Segment.acknowledgment connection.sendNext connection.recvNext connection.config.receiveWindow

/-- An entry of the peer's script was taken and answered. -/
structure Takes (before : Connection) (heard : List AppEvent) (ledger : Ledger) (peer : Party)
    (front : List Cargo) (cargo : Cargo) (after : Connection) (received : List Cargo) : Prop where
  /-- The connection follows the peer. -/
  follows : after.Follows heard { ledger with received } peer
  /-- Nothing that was received is lost. -/
  later : ledger.received <+: received
  /-- The next entry is received. -/
  progress : front <+: ledger.received → front ++ [cargo] <+: received
  /-- Only a FIN completes the stream. -/
  fin_cause : .fin ∈ received → .fin ∈ ledger.received ∨ cargo = .fin
  /-- Only the receiving side and the phase change, and one acknowledgment is sent. -/
  frame : ∃ window phase events,
    after = { before with
      window, phase, events
      outbox := before.outbox ++ [after.acknowledgment] } ∧
    (phase = before.phase ∨ before.phase.afterPeerFin? = some phase ∧ .fin ∈ received)

namespace Follows

variable {connection : Connection} {heard : List AppEvent} {ledger : Ledger} {peer : Party}
  {front back : List Cargo}

theorem takeContent_data (follows : connection.Follows heard ledger peer)
    (fits : connection.Fits ledger peer) (running : connection.phase ≠ .terminated)
    (received_ne : ledger.received ≠ []) {chunk : Bytes}
    (split : peer.ledger.script = front ++ .data chunk :: back) (ack : SeqNum)
    (advertised : UInt16) :
    ∃ after received,
      connection.takeContent
          ((Cargo.data chunk).segment (peer.isn.advance (extent front)) ack advertised) =
        .ok after ∧
      connection.Takes heard ledger peer front (.data chunk) after received := by
  have chunk_ne : chunk ≠ [] := by
    simpa [List.length_pos_iff] using
      fits.valid.length_pos (show .data chunk ∈ peer.ledger.script by simp [split])
  obtain ⟨arrival, run, rest, received, arrived, arrival_eq, capacity_eq, receives, later,
    content_eq, fin_iff, progress⟩ :=
    (follows.receives received_ne).receive fits.valid fits.near fits.within split
  have complete : .fin ∈ ledger.received → run = [] := by
    intro finished
    have all := fits.valid.eq_of_fin_mem follows.received_isPrefix finished
    have same := later.eq_of_length_le (by rw [all]; exact receives.received_isPrefix.length_le)
    simpa [← same] using content_eq
  let taken : Connection :=
    { connection with
      window := rest
      events := connection.events ++ if run.isEmpty then [] else [.data run] }
  have taken_eq : connection.takePayload (peer.isn.advance (extent front)) chunk =
      .ok (true, taken) := by
    rw [takePayload, arrived]
    rcases arrival_eq with ⟨rfl, rfl⟩ | rfl
    · simp [taken, bind, Except.bind, pure, Except.pure]
    · rfl
  refine ⟨taken.sendAck, received, ?_, ?_⟩
  · have hasPayload : (!chunk.isEmpty) = true := by simpa using chunk_ne
    simp only [takeContent, Cargo.segment, Cargo.payload, Cargo.flags, hasPayload, if_true,
      taken_eq]
    rfl
  · refine ⟨⟨?_, ?_, capacity_eq.trans follows.capacity_eq, follows.acked_isPrefix,
      receives.received_isPrefix, fun _ => receives, ?_⟩, later, progress, ?_, ?_⟩
    · exact follows.sends.follow running (fun ended => absurd ended running) rest _ _
    · exact follows.admits.receive received_ne later fin_iff
    · rw [show taken.sendAck.events = taken.events from rfl, ← List.append_assoc]
      exact follows.reports.deliver content_eq fin_iff complete
    · intro finished
      exact Or.inl (fin_iff.mp finished)
    · exact ⟨rest, connection.phase, taken.events, rfl, Or.inl rfl⟩

theorem sendAck (follows : connection.Follows heard ledger peer)
    (running : connection.phase ≠ .terminated) :
    connection.sendAck.Follows heard ledger peer where
  sends := follows.sends.follow running (fun ended => absurd ended running) connection.window _ _
  admits := follows.admits
  capacity_eq := follows.capacity_eq
  acked_isPrefix := follows.acked_isPrefix
  received_isPrefix := follows.received_isPrefix
  receives := follows.receives
  reports := follows.reports

/-- The FIN at the expected position completes the stream. -/
theorem takePeerFin (follows : connection.Follows heard ledger peer)
    (synchronized : connection.phase.isSynchronized) (unfinished : .fin ∉ ledger.received)
    (isFront : ledger.received ++ [.fin] <+: peer.ledger.script) :
    ∃ phase, connection.phase.afterPeerFin? = some phase ∧
      connection.takePeerFin =
        { connection with
          phase
          window := connection.window.consumeFlag
          events := connection.events ++ [.peerFinished] } ∧
      connection.takePeerFin.sendAck.Follows heard
        { ledger with received := ledger.received ++ [.fin] } peer := by
  obtain ⟨phase, after_eq, admits⟩ := follows.admits.receiveFin synchronized unfinished
  have running := Phase.ne_terminated_of_synchronized synchronized
  have taken_eq : connection.takePeerFin =
      { connection with
        phase
        window := connection.window.consumeFlag
        events := connection.events ++ [.peerFinished] } := by
    rw [Connection.takePeerFin]
    simp only [after_eq]
  have received_ne := follows.admits.received_ne synchronized
  have receives := ReceiveWindow.Receives.consumeFlag (follows.receives received_ne).next_eq
    Cargo.length_fin isFront
  refine ⟨phase, after_eq, taken_eq, ?_⟩
  rw [taken_eq]
  refine ⟨?_, admits, ?_, follows.acked_isPrefix, isFront, fun _ => receives, ?_⟩
  · refine follows.sends.follow running (fun ended => ?_) _ _ _
    have waiting : connection.phase = .finWait2 := by
      subst ended
      cases phase_eq : connection.phase <;> simp_all [Phase.afterPeerFin?]
    have admits := follows.admits
    rw [waiting] at admits
    exact follows.sends.segments_eq_nil running admits.2.1
  · exact (ReceiveWindow.capacity_consumeFlag connection.window).trans follows.capacity_eq
  · have told := follows.reports.finish unfinished
    rwa [List.append_assoc] at told

theorem takeContent_fin (follows : connection.Follows heard ledger peer)
    (fits : connection.Fits ledger peer) (synchronized : connection.phase.isSynchronized)
    (split : peer.ledger.script = front ++ .fin :: back) (ack : SeqNum) (advertised : UInt16) :
    ∃ after received,
      connection.takeContent (Cargo.fin.segment (peer.isn.advance (extent front)) ack advertised) =
        .ok after ∧
      connection.Takes heard ledger peer front .fin after received := by
  have running := Phase.ne_terminated_of_synchronized synchronized
  have received_ne := follows.admits.received_ne synchronized
  have valid := fits.valid
  obtain rfl : back = [] := by
    rw [split] at valid
    exact valid.nil_of_append_fin
  have isFront : front <+: peer.ledger.script := ⟨[.fin], split.symm⟩
  have extent_le := extent_le_of_isPrefix follows.received_isPrefix
  have front_le := extent_le_of_isPrefix isFront
  have near := fits.near
  have next_eq := (follows.receives received_ne).next_eq
  have expected_iff : peer.isn.advance (extent front) = connection.recvNext ↔
      front = ledger.received := by
    rw [recvNext, next_eq, SeqNum.advance_inj _ (by omega) (by omega)]
    constructor
    · exact valid.eq_of_extent_eq isFront follows.received_isPrefix
    · rintro rfl
      rfl
  have content_eq : connection.takeContent
      (Cargo.fin.segment (peer.isn.advance (extent front)) ack advertised) =
        .ok (if front = ledger.received then connection.takePeerFin.sendAck
          else connection.sendAck) := by
    have span_eq : ({} : Flags).span 0 = .ok 0 := rfl
    simp only [takeContent, Cargo.segment, Cargo.payload, Cargo.flags, List.isEmpty_nil,
      List.length_nil, span_eq]
    simp only [bind, Except.bind, pure, Except.pure, Bool.not_true, Bool.false_eq_true, if_false,
      if_true, SeqNum.advance_zero, expected_iff]
    split <;> rfl
  by_cases expected : front = ledger.received
  · subst expected
    have unfinished : .fin ∉ ledger.received := by
      intro finished
      have all := valid.eq_of_fin_mem follows.received_isPrefix finished
      rw [split] at all
      simpa using congrArg List.length all
    have isFront : ledger.received ++ [.fin] <+: peer.ledger.script := by
      rw [split]
    obtain ⟨phase, after_eq, taken_eq, follows'⟩ :=
      follows.takePeerFin synchronized unfinished isFront
    rw [if_pos rfl] at content_eq
    refine ⟨_, ledger.received ++ [.fin], content_eq, follows', List.prefix_append _ _,
      fun _ => List.prefix_refl _, fun _ => Or.inr rfl, ?_⟩
    refine ⟨connection.window.consumeFlag, phase, connection.events ++ [.peerFinished], ?_,
      Or.inr ⟨after_eq, by simp⟩⟩
    rw [taken_eq]
    rfl
  · rw [if_neg expected] at content_eq
    refine ⟨_, ledger.received, content_eq, follows.sendAck running, List.prefix_refl _, ?_,
      Or.inl, connection.window, connection.phase, connection.events, rfl, Or.inl rfl⟩
    rintro ⟨rest, received_eq⟩
    have isPrefix := follows.received_isPrefix
    rw [split, ← received_eq, List.prefix_append_right_inj] at isPrefix
    rw [← received_eq, List.prefix_append_right_inj]
    have rest_ne : rest ≠ [] := by
      rintro rfl
      exact expected (by simpa using received_eq)
    rw [isPrefix.eq_of_length_le (List.length_pos_iff.mpr rest_ne)]

end Follows
end Connection
end ReliableTransport
