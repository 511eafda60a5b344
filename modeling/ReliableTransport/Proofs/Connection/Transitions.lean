import ReliableTransport.Proofs.Station.Intake

/-!
# From phase to phase

An operation leaves the phase of a connection or moves it to one of few others.  One segment can make
two moves: the acknowledgment of the handshake or of the own FIN, and the peer's FIN behind it.
Whatever a peer sends, only an answer to the own SYN completes a handshake.
-/

namespace ReliableTransport

open Fault

namespace Phase

/-- The phases that a received segment can lead to. -/
def onSegment : Phase → List Phase
  | closed => [synReceived]
  | synSent => [established]
  | synReceived => [established, closeWait]
  | established => [closeWait]
  | finWait1 => [finWait2, closing, terminated]
  | finWait2 | lastAck | closing => [terminated]
  | closeWait | terminated => []

/-- The phases that closing the own direction can lead to. -/
def onClose : Phase → List Phase
  | closed | synSent => [terminated]
  | synReceived | established => [finWait1]
  | closeWait => [lastAck]
  | finWait1 | finWait2 | lastAck | closing | terminated => []

/-- The handshake is not complete. -/
def isHandshaking : Phase → Bool
  | closed | synSent | synReceived => true
  | established | finWait1 | finWait2 | closeWait | lastAck | closing | terminated => false

theorem isHandshaking_eq {phase : Phase} (running : phase ≠ terminated) :
    phase.isHandshaking = !phase.isSynchronized := by
  cases phase <;> first | rfl | exact absurd rfl running

theorem ne_terminated_of_onSegment {phase next : Phase} (handshaking : phase.isHandshaking = true)
    (moved : next ∈ phase.onSegment) : next ≠ terminated := by
  cases phase <;> simp_all [isHandshaking, onSegment]
  rcases moved with rfl | rfl <;> decide

theorem mem_onSegment {phase middle next : Phase} (synchronized : phase.isSynchronized)
    (acked : middle = phase ∨ middle = phase.afterFinAcked)
    (moved : next = middle ∨ middle.afterPeerFin? = some next) :
    next = phase ∨ next ∈ phase.onSegment := by
  rcases acked with rfl | rfl <;> rcases moved with rfl | moved
  · exact Or.inl rfl
  · cases middle <;> simp_all [afterPeerFin?, onSegment]
  · cases phase <;> simp_all [afterFinAcked, onSegment]
  · cases phase <;> simp_all [afterFinAcked, afterPeerFin?, onSegment]

end Phase

namespace Segment

/-- A SYN that acknowledges the SYN of an end. -/
def AnswersSyn (segment : Segment) (isn : SeqNum) : Prop :=
  segment.header.flags.syn = true ∧ segment.header.flags.ack = true ∧
    segment.header.ack = isn.advance 1

/-- No SYN, but the acknowledgment of the SYN of an end. -/
def ConfirmsSyn (segment : Segment) (isn : SeqNum) : Prop :=
  segment.header.flags.syn = false ∧ segment.header.flags.ack = true ∧
    segment.header.ack = isn.advance 1

end Segment

namespace Connection

/-- The phases that an operation can lead to. -/
def Operation.leads : Operation → Phase → List Phase
  | .openActive, phase => if phase = .closed then [.synSent] else []
  | .listen, _ | .send _, _ => []
  | .close, phase => phase.onClose
  | .abort, _ | .expire, _ => [.terminated]
  | .receive _, phase => phase.onSegment

theorem Operation.closed_not_mem_leads (operation : Operation) (phase : Phase) :
    .closed ∉ operation.leads phase := by
  cases operation <;> cases phase <;> simp [leads, Phase.onSegment, Phase.onClose]

theorem Operation.isHandshaking_of_leads (operation : Operation) {phase next : Phase}
    (moved : next ∈ operation.leads phase) (handshaking : next.isHandshaking = true) :
    phase.isHandshaking = true := by
  cases operation <;> cases phase <;> cases next <;>
    simp_all [leads, Phase.onSegment, Phase.onClose, Phase.isHandshaking]

theorem Operation.eq_closed_of_synReceived_mem_leads (operation : Operation) {phase : Phase}
    (moved : .synReceived ∈ operation.leads phase) : phase = .closed := by
  cases operation <;> cases phase <;> simp_all [leads, Phase.onSegment, Phase.onClose]

variable {connection after : Connection} {segment : Segment} {now : Nat}

theorem takePeerFin_phase (connection : Connection) :
    connection.takePeerFin.phase = connection.phase ∨
      connection.phase.afterPeerFin? = some connection.takePeerFin.phase := by
  rw [takePeerFin]
  simp only
  split
  next phase next_eq => exact Or.inr next_eq
  next => exact Or.inl rfl

theorem takeContent_phase (taken : connection.takeContent segment = .ok after) :
    after.phase = connection.phase ∨ connection.phase.afterPeerFin? = some after.phase := by
  obtain ⟨inWindow, middle, received, answered⟩ := answered_of_takeContent taken
  have phase_eq : middle.phase = connection.phase := by
    rcases received with ⟨-, -, rfl⟩ | ⟨-, received⟩
    · rfl
    · obtain ⟨run, window, -, middle_eq⟩ := eq_of_takePayload received
      rw [middle_eq]
  rw [← phase_eq]
  cases answered with
  | beyond | nothing | misplaced | data => exact Or.inl rfl
  | finished => exact middle.takePeerFin_phase

theorem takeSynchronized_phase (synchronized : connection.phase.isSynchronized)
    (taken : connection.takeSynchronized segment now = .ok after) :
    after.phase = connection.phase ∨ after.phase ∈ connection.phase.onSegment := by
  rcases takeSynchronized_cases taken with ⟨-, rfl | rfl⟩ | ⟨-, content | acknowledgment⟩
  · exact Or.inl rfl
  · exact Or.inl rfl
  · exact Phase.mem_onSegment synchronized (Or.inl rfl) (takeContent_phase content)
  · obtain ⟨middle, acknowledged, rest⟩ := acknowledgment
    obtain ⟨sendWindow, sendUnacked, flight, roundTrip, phase, rfl, moved⟩ :=
      eq_of_takeAck acknowledged
    refine Phase.mem_onSegment synchronized moved ?_
    rcases rest with ⟨-, rfl⟩ | ⟨-, content⟩
    · exact Or.inl rfl
    · exact takeContent_phase content

theorem takeClosed_answers (taken : connection.takeClosed segment now = .ok after) :
    after = connection ∨ segment.header.flags = { syn := true } ∧ after.phase = .synReceived := by
  rw [takeClosed] at taken
  simp only at taken
  split at taken
  · next welcome =>
      simp only [Bool.and_eq_true, decide_eq_true_eq] at welcome
      obtain ⟨sent, -, taken⟩ := exists_of_bind_eq_ok taken
      obtain rfl := Except.ok.inj taken
      exact Or.inr ⟨welcome.2, rfl⟩
  · exact Or.inl (Except.ok.inj taken).symm

theorem takeSynSent_answers (taken : connection.takeSynSent segment now = .ok after) :
    after = connection ∨ segment.AnswersSyn connection.isn ∧ after.phase = .established := by
  rw [takeSynSent] at taken
  simp only at taken
  split at taken
  · next answers =>
      simp only [Bool.and_eq_true, decide_eq_true_eq] at answers
      obtain ⟨middle, -, taken⟩ := exists_of_bind_eq_ok taken
      obtain rfl := Except.ok.inj taken
      exact Or.inr ⟨⟨answers.1.1, answers.1.2, answers.2⟩, rfl⟩
  · exact Or.inl (Except.ok.inj taken).symm

theorem takeSynReceived_answers (taken : connection.takeSynReceived segment now = .ok after) :
    after = connection ∨ segment.ConfirmsSyn connection.isn ∧
      (after.phase = .established ∨ after.phase = .closeWait) := by
  rw [takeSynReceived] at taken
  split at taken
  · next confirms =>
      simp only [Bool.and_eq_true, Bool.not_eq_true', decide_eq_true_eq] at confirms
      refine Or.inr ⟨⟨confirms.1.1, confirms.1.2, confirms.2⟩, ?_⟩
      rcases takeSynchronized_phase (by rfl) taken with same | moved
      · exact Or.inl same
      · exact Or.inr (List.mem_singleton.mp moved)
  · exact Or.inl (Except.ok.inj taken).symm

/-- What is no segment changes nothing. -/
theorem receive_cases {raw : Bytes} (received : connection.receive raw now = .ok after) :
    after = connection ∨
      ∃ segment, Segment.decode raw = .ok segment ∧
        connection.takeSegment segment now = .ok after := by
  rw [receive] at received
  split at received
  · exact Or.inl (Except.ok.inj received).symm
  · next segment decoded => exact Or.inr ⟨segment, decoded, received⟩

/-- A received segment leaves the phase or moves it to one of few others. -/
theorem receive_phase {raw : Bytes} (received : connection.receive raw now = .ok after) :
    after.phase = connection.phase ∨ after.phase ∈ connection.phase.onSegment := by
  rcases receive_cases received with rfl | ⟨segment, -, taken⟩
  · exact Or.inl rfl
  rw [takeSegment] at taken
  split at taken
  · next closed =>
      rcases takeClosed_answers taken with rfl | ⟨-, answered⟩
      · exact Or.inl rfl
      · exact Or.inr (by simp [closed, answered, Phase.onSegment])
  · next waiting =>
      rcases takeSynSent_answers taken with rfl | ⟨-, answered⟩
      · exact Or.inl rfl
      · exact Or.inr (by simp [waiting, answered, Phase.onSegment])
  · next waiting =>
      rcases takeSynReceived_answers taken with rfl | ⟨-, answered⟩
      · exact Or.inl rfl
      · exact Or.inr (by simpa [waiting, Phase.onSegment] using answered)
  all_goals first
    | next phase_eq => exact takeSynchronized_phase (by rw [phase_eq]; rfl) taken
    | next => exact Or.inl (congrArg phase (Except.ok.inj taken).symm)

theorem close_phase (closed : connection.close now = .ok after) :
    after.phase = connection.phase ∨ after.phase ∈ connection.phase.onClose := by
  rcases eq_of_close closed with rfl | ⟨handshaking, rfl⟩ | ⟨opened, flight, sendNext, rfl⟩
  · exact Or.inl rfl
  · rcases handshaking with phase_eq | phase_eq <;>
      exact Or.inr (by simp [phase_eq, Phase.onClose, abort])
  · rcases opened with phase_eq | phase_eq | phase_eq <;>
      exact Or.inr (by simp [phase_eq, Phase.onClose])

/-- Every operation leaves the phase or moves it to one of few others. -/
theorem apply_phase {operation : Operation}
    (applied : connection.apply operation now = .ok after) :
    after.phase = connection.phase ∨ after.phase ∈ operation.leads connection.phase := by
  cases operation with
  | openActive =>
      rw [apply, openActive] at applied
      split at applied
      · next closed =>
          obtain ⟨asking, -, applied⟩ := exists_of_bind_eq_ok applied
          obtain rfl := Except.ok.inj applied
          exact Or.inr (by simp [Operation.leads, closed])
      · exact Or.inl (congrArg phase (Except.ok.inj applied).symm)
  | listen =>
      obtain rfl := Except.ok.inj applied
      exact Or.inl rfl
  | send pending =>
      obtain ⟨⟨chunk, sent⟩, chunk_sent, applied⟩ := exists_of_bind_eq_ok applied
      obtain rfl := Except.ok.inj applied
      rcases (eq_of_sendChunk chunk_sent).2 with ⟨-, rfl⟩ | ⟨flight, sendNext, rfl⟩
      · exact Or.inl rfl
      · exact Or.inl rfl
  | close => exact close_phase applied
  | abort =>
      obtain rfl := Except.ok.inj applied
      exact Or.inr List.mem_cons_self
  | expire =>
      obtain ⟨⟨result, expired⟩, done, applied⟩ := exists_of_bind_eq_ok applied
      obtain rfl := Except.ok.inj applied
      rcases expire_cases done with ⟨-, rfl, -⟩ | ⟨-, rfl⟩ | ⟨segments, roundTrip, -, -, rfl⟩
      · exact Or.inl rfl
      · exact Or.inr List.mem_cons_self
      · exact Or.inl rfl
  | receive raw => exact receive_phase applied

theorem answersSyn_of_receive {raw : Bytes} (received : connection.receive raw now = .ok after)
    (waiting : connection.phase = .synSent) (left : after.phase ≠ .synSent) :
    after.phase = .established ∧
      ∃ segment, Segment.decode raw = .ok segment ∧ segment.AnswersSyn connection.isn := by
  rcases receive_cases received with rfl | ⟨segment, decoded, taken⟩
  · exact absurd waiting left
  simp only [takeSegment, waiting] at taken
  rcases takeSynSent_answers taken with rfl | ⟨answers, established⟩
  · exact absurd waiting left
  · exact ⟨established, segment, decoded, answers⟩

/-- A connection that answered a SYN goes on by a segment only if this acknowledges the answer. -/
theorem confirmsSyn_of_receive {raw : Bytes} (received : connection.receive raw now = .ok after)
    (waiting : connection.phase = .synReceived) (left : after ≠ connection) :
    (after.phase = .established ∨ after.phase = .closeWait) ∧
      ∃ segment, Segment.decode raw = .ok segment ∧ segment.ConfirmsSyn connection.isn := by
  obtain ⟨segment, decoded, taken⟩ := (receive_cases received).resolve_left left
  simp only [takeSegment, waiting] at taken
  obtain ⟨confirms, completed⟩ := (takeSynReceived_answers taken).resolve_left left
  exact ⟨completed, segment, decoded, confirms⟩

/-- Nothing is told before the handshake is complete. -/
theorem silent_of_apply {operation : Operation}
    (applied : connection.apply operation now = .ok after)
    (handshaking : after.phase.isHandshaking = true) :
    connection.phase.isHandshaking = true ∧ after.events = connection.events := by
  have before : connection.phase.isHandshaking = true := by
    rcases apply_phase applied with same | moved
    · rw [← same, handshaking]
    · exact operation.isHandshaking_of_leads moved handshaking
  refine ⟨before, ?_⟩
  cases apply_learns applied with
  | nothing rests => exact rests.events_eq
  | handshake _ _ meets => exact meets.events_eq
  | @content raw _ _ _ received _ opened _ absorbs =>
      subst received
      have waiting : connection.phase = .synReceived := by
        cases phase_eq : connection.phase <;> simp_all [Phase.isOpening, Phase.isHandshaking]
      by_cases same : after = connection
      · rw [same]
      · obtain ⟨completed | completed, -⟩ := confirmsSyn_of_receive applied waiting same
        all_goals simp [completed, Phase.isHandshaking] at handshaking

end Connection
end ReliableTransport
