import ReliableTransport.Proofs.Connection.Receiving
import ReliableTransport.Proofs.Connection.Transitions

/-!
# What a received segment is answered by

A received byte string is answered by one segment at most.  A listening connection answers a plain SYN
by its own SYN.  Everything else that is answered at all is answered by an acknowledgment without
content, and has content itself.
-/

namespace ReliableTransport

open Fault

/-- A segment occupies sequence numbers. -/
def Segment.occupies (segment : Segment) : Bool :=
  segment.header.flags.syn || segment.header.flags.fin || !segment.payload.isEmpty

/-- A byte string is a segment that occupies sequence numbers. -/
def Bytes.occupies (raw : Bytes) : Bool :=
  (Segment.decode raw).toOption.any Segment.occupies

namespace Segment

variable {segment : Segment}

theorem occupies_of_syn (syn : segment.header.flags.syn = true) : segment.occupies = true := by
  simp [occupies, syn]

theorem occupies_of_fin (fin : segment.header.flags.fin = true) : segment.occupies = true := by
  simp [occupies, fin]

theorem occupies_of_payload (payload : segment.payload ≠ []) : segment.occupies = true := by
  simp [occupies, payload]

theorem occupies_of_decode {raw : Bytes} (decoded : decode raw = .ok segment) :
    Bytes.occupies raw = segment.occupies := by
  simp [Bytes.occupies, decoded, Except.toOption]

/-- What acknowledges without content occupies nothing. -/
theorem occupies_acknowledgment (seq ack : SeqNum) (window : UInt16) :
    Bytes.occupies (acknowledgment seq ack window) = false := by
  rw [occupies_of_decode (decode_acknowledgment seq ack window)]
  rfl

end Segment

namespace Connection

variable {connection after : Connection} {segment : Segment} {now : Nat}

/-- A segment is not answered, or has content and is answered by an acknowledgment. -/
def Echoes (before : Connection) (segment : Segment) (after : Connection) : Prop :=
  after.outbox = before.outbox ∨
    segment.occupies = true ∧ after.outbox = before.outbox ++ [after.acknowledgment]

/-- The one segment that a received byte string is answered by, if any. -/
inductive Replies (before : Connection) (raw : Bytes) (after : Connection) : Prop
  /-- There is no answer. -/
  | silence : after.outbox = before.outbox → Replies before raw after
  /-- A plain SYN that is welcome is answered by the own SYN. -/
  | greeting {segment : Segment} : before.phase = .closed → before.listening = true →
      Segment.decode raw = .ok segment → segment.header.flags = { syn := true } →
      after.phase = .synReceived →
      after.outbox = before.outbox ++
        [(Cargo.syn true).encode before.sendNext after.recvNext before.config.receiveWindow] →
      Replies before raw after
  /-- A segment with content is answered by an acknowledgment without content. -/
  | acknowledgment : raw.occupies = true →
      after.outbox = before.outbox ++ [after.acknowledgment] → Replies before raw after

theorem Echoes.replies {raw : Bytes} (decoded : Segment.decode raw = .ok segment)
    (echoes : connection.Echoes segment after) : connection.Replies raw after := by
  rcases echoes with same | ⟨occupies, echoed⟩
  · exact .silence same
  · exact .acknowledgment ((Segment.occupies_of_decode decoded).trans occupies) echoed

/-- What occupies no sequence numbers, malformed bytes among them, is not answered. -/
theorem Replies.outbox_eq {raw : Bytes} (replies : connection.Replies raw after)
    (vacant : raw.occupies = false) : after.outbox = connection.outbox := by
  cases replies with
  | silence same => exact same
  | greeting _ _ decoded plain =>
      rw [Segment.occupies_of_decode decoded, Segment.occupies_of_syn (by rw [plain])] at vacant
      cases vacant
  | acknowledgment occupies =>
      rw [vacant] at occupies
      cases occupies

theorem outbox_takePeerFin (connection : Connection) :
    connection.takePeerFin.outbox = connection.outbox := by
  rw [takePeerFin]
  simp only
  split <;> rfl

theorem takeContent_echoes (taken : connection.takeContent segment = .ok after) :
    connection.Echoes segment after := by
  obtain ⟨inWindow, middle, received, answered⟩ := answered_of_takeContent taken
  have outbox_eq : middle.outbox = connection.outbox := by
    rcases received with ⟨-, -, rfl⟩ | ⟨-, received⟩
    · rfl
    · obtain ⟨run, window, -, middle_eq⟩ := eq_of_takePayload received
      rw [middle_eq]
  rw [Echoes, ← outbox_eq]
  cases answered with
  | beyond | nothing => exact Or.inl rfl
  | misplaced fin => exact Or.inr ⟨Segment.occupies_of_fin fin, rfl⟩
  | data payload => exact Or.inr ⟨Segment.occupies_of_payload payload, rfl⟩
  | finished fin =>
      refine Or.inr ⟨Segment.occupies_of_fin fin, ?_⟩
      rw [← middle.outbox_takePeerFin]
      rfl

/-- A segment on an agreed connection is echoed at most, whatever it acknowledges. -/
theorem takeSynchronized_echoes (taken : connection.takeSynchronized segment now = .ok after) :
    connection.Echoes segment after := by
  rcases takeSynchronized_cases taken with ⟨syn, rfl | rfl⟩ | ⟨-, content | acknowledgment⟩
  · exact Or.inl rfl
  · exact Or.inr ⟨Segment.occupies_of_syn syn, rfl⟩
  · exact takeContent_echoes content
  · obtain ⟨middle, acknowledged, rest⟩ := acknowledgment
    obtain ⟨sendWindow, sendUnacked, flight, roundTrip, phase, rfl, -⟩ :=
      eq_of_takeAck acknowledged
    rcases rest with ⟨-, rfl⟩ | ⟨-, content⟩
    · exact Or.inl rfl
    · have echoes := takeContent_echoes content
      exact echoes

theorem takeSynSent_echoes (taken : connection.takeSynSent segment now = .ok after) :
    connection.Echoes segment after := by
  rw [takeSynSent] at taken
  simp only at taken
  split at taken
  next answers =>
    simp only [Bool.and_eq_true, decide_eq_true_eq] at answers
    obtain ⟨middle, acknowledged, taken⟩ := exists_of_bind_eq_ok taken
    obtain ⟨sendWindow, sendUnacked, flight, roundTrip, phase, rfl, -⟩ :=
      eq_of_takeAck acknowledged
    obtain rfl := Except.ok.inj taken
    exact Or.inr ⟨Segment.occupies_of_syn answers.1.1, rfl⟩
  next =>
    obtain rfl := Except.ok.inj taken
    exact Or.inl rfl

theorem takeSynReceived_echoes (taken : connection.takeSynReceived segment now = .ok after) :
    connection.Echoes segment after := by
  rw [takeSynReceived] at taken
  split at taken
  · have echoes := takeSynchronized_echoes taken
    exact echoes
  · obtain rfl := Except.ok.inj taken
    exact Or.inl rfl

theorem takeClosed_replies {raw : Bytes} (closed : connection.phase = .closed)
    (decoded : Segment.decode raw = .ok segment)
    (taken : connection.takeClosed segment now = .ok after) : connection.Replies raw after := by
  rw [takeClosed] at taken
  simp only at taken
  split at taken
  next welcome =>
    simp only [Bool.and_eq_true, decide_eq_true_eq] at welcome
    obtain ⟨sent, transmitted, taken⟩ := exists_of_bind_eq_ok taken
    obtain ⟨flight, sendNext, rfl⟩ := eq_of_transmit transmitted
    obtain rfl := Except.ok.inj taken
    exact .greeting closed welcome.1 decoded welcome.2 rfl rfl
  next =>
    obtain rfl := Except.ok.inj taken
    exact .silence rfl

/-- Whatever bytes arrive, they are answered by one segment at most. -/
theorem receive_replies {raw : Bytes} (received : connection.receive raw now = .ok after) :
    connection.Replies raw after := by
  rcases receive_cases received with rfl | ⟨segment, decoded, taken⟩
  · exact .silence rfl
  rw [takeSegment] at taken
  split at taken
  · next closed => exact takeClosed_replies closed decoded taken
  · exact (takeSynSent_echoes taken).replies decoded
  · exact (takeSynReceived_echoes taken).replies decoded
  all_goals first
    | exact (takeSynchronized_echoes taken).replies decoded
    | exact .silence (congrArg outbox (Except.ok.inj taken).symm)

end Connection
end ReliableTransport
