import ReliableTransport.Proofs.Connection.Content

/-!
# A segment that arrives once more

A segment that was taken and arrives once more is acknowledged again at most.  Its acknowledgment is
known, its payload is buffered or stale, its FIN is behind the next expected position, and no
handshake is made twice.
-/

namespace ReliableTransport

open Fault

namespace Connection

variable {connection middle after : Connection} {segment : Segment} {inWindow : Bool}

/-- A segment that was taken before leaves the connection as it is, apart from an acknowledgment. -/
def Repeats (connection : Connection) (taken : Except Fault Connection) : Prop :=
  taken = .ok connection ∨ taken = .ok connection.sendAck

/-- An acknowledgment with its window advertisement brings nothing new. -/
def Knows (connection : Connection) (ack : SeqNum) (advertised : UInt16) : Prop :=
  ack.After connection.sendNext ∨
    connection.sendWindow = connection.granted advertised ∧ ¬ ack.After connection.sendUnacked

theorem knows_of_takeAck {ack : SeqNum} {advertised : UInt16} {now : Nat}
    (taken : connection.takeAck ack advertised now = .ok after) : after.Knows ack advertised := by
  rcases takeAck_cases taken with
      ⟨unsent, rfl⟩ | ⟨-, old, rfl⟩ | ⟨-, -, flight, roundTrip, phase, rfl, -⟩
  · exact Or.inl unsent
  · exact Or.inr ⟨rfl, old⟩
  · exact Or.inr ⟨rfl, ack.not_after_self⟩

/-- A known acknowledgment changes nothing. -/
theorem Knows.takeAck {ack : SeqNum} {advertised : UInt16} (knows : connection.Knows ack advertised)
    (now : Nat) : connection.takeAck ack advertised now = .ok connection := by
  rw [Connection.takeAck]
  split
  next => rfl
  next sent =>
    obtain ⟨window_eq, old⟩ := knows.resolve_left sent
    rw [← window_eq]
    exact if_neg old

theorem arrive_of_stale
    (stale : segment.payload ≠ [] → segment.payload.length < UInt32.size ∧
      (segment.header.seq.advance segment.payload.length).AtOrBefore connection.recvNext) :
    connection.arrive segment = .ok (true, connection) := by
  rw [arrive]
  split
  next => rfl
  next payload =>
    obtain ⟨counted, stale⟩ := stale (by simpa using payload)
    rw [takePayload, ReceiveWindow.receive_of_stale counted stale]
    rfl

/-- What the window needs for a payload to change nothing when it arrives once more. -/
structure Rearrives (connection : Connection) (segment : Segment) : Prop where
  /-- The payload reaches at most to the end of the window. -/
  spans : segment.payload ≠ [] →
    connection.window.Spans (segment.header.seq.advance segment.payload.length)
  /-- The next expected byte is missing. -/
  gap : connection.window.buffered 0 = none
  /-- The window is small compared to the sequence space. -/
  small : connection.window.capacity < 2147483648

namespace Rearrives

theorem arrive (rearrives : connection.Rearrives segment)
    (arrived : connection.arrive segment = .ok (inWindow, middle))
    (window_eq : after.window = middle.window) :
    after.arrive segment = .ok (inWindow, after) := by
  rw [Connection.arrive] at arrived ⊢
  split at arrived
  next empty =>
    obtain ⟨rfl, -⟩ := Prod.mk.inj (Except.ok.inj arrived)
    rw [if_pos empty]
  next payload =>
    rw [if_neg payload]
    rw [takePayload_eq] at arrived ⊢
    obtain ⟨⟨arrival, window⟩, received, arrived⟩ := exists_of_map_eq_ok arrived
    obtain ⟨rfl, rfl⟩ := Prod.mk.inj arrived
    obtain ⟨again, received_again, idle, beyond_iff⟩ :=
      (rearrives.spans (by simpa using payload)).receive_again rearrives.gap rearrives.small received
    have window_eq : after.window = window := window_eq
    subst window_eq
    rw [received_again]
    simp [Except.map, idle, beyond_iff, AppEvent.tidings]

/-- Content that arrives once more is acknowledged again at most. -/
theorem takeContent (rearrives : connection.Rearrives segment)
    (taken : connection.takeContent segment = .ok after) :
    after.Repeats (after.takeContent segment) := by
  rw [takeContent_eq] at taken
  obtain ⟨⟨inWindow, middle⟩, arrived, answered⟩ := exists_of_map_eq_ok taken
  have answered : middle.answer segment inWindow = after := answered
  -- without an expected FIN, the answer to what arrived again is an acknowledgment at most
  have again {inWindow : Bool} (arrived : after.arrive segment = .ok (inWindow, after))
      (unexpected : inWindow = true → ¬ after.ExpectsFin segment) :
      after.Repeats (after.takeContent segment) := by
    rw [takeContent_eq, arrived]
    exact (answer_of_not_expectsFin unexpected).imp (congrArg Except.ok) (congrArg Except.ok)
  by_cases expects : inWindow = true ∧ middle.ExpectsFin segment
  · obtain ⟨rfl, fin, position_eq⟩ := expects
    obtain ⟨phase, events, finished_eq⟩ := middle.takePeerFin_eq
    have next_eq : after.recvNext = segment.finPosition.advance 1 := by
      rw [← answered, answer_of_expectsFin ⟨fin, position_eq⟩, position_eq, finished_eq]
      rfl
    refine again (arrive_of_stale fun _ => ?_) fun _ isFin => ?_
    · have counted := length_lt_of_arrive arrived
      have early := (SeqNum.atOrBefore_advance_iff segment.finPosition (i := 0) (j := 1)
        (by omega) (by omega)).mpr (by omega)
      rw [SeqNum.advance_zero, ← next_eq, Segment.finPosition_eq counted] at early
      exact ⟨counted, early⟩
    · have same := isFin.2.trans next_eq
      rw [← SeqNum.advance_zero segment.finPosition, SeqNum.advance_advance,
        SeqNum.advance_inj _ (by omega) (by omega)] at same
      omega
  · have unexpected : inWindow = true → ¬ middle.ExpectsFin segment :=
      fun inside isFin => expects ⟨inside, isFin⟩
    have window_eq : after.window = middle.window := by
      rw [← answered]
      rcases answer_of_not_expectsFin unexpected with same | echoed
      · rw [same]
      · rw [echoed]
        rfl
    refine again (rearrives.arrive arrived window_eq) fun inside isFin => unexpected inside ?_
    rwa [ExpectsFin, recvNext, window_eq] at isFin

end Rearrives

theorem Rearrives.of_takeAck {ack : SeqNum} {advertised : UInt16} {now : Nat}
    (rearrives : connection.Rearrives segment)
    (taken : connection.takeAck ack advertised now = .ok after) : after.Rearrives segment := by
  obtain ⟨sendWindow, sendUnacked, flight, roundTrip, phase, rfl, -⟩ := eq_of_takeAck taken
  exact ⟨rearrives.spans, rearrives.gap, rearrives.small⟩

theorem Knows.of_takeContent {ack : SeqNum} {advertised : UInt16}
    (knows : connection.Knows ack advertised) (taken : connection.takeContent segment = .ok after) :
    after.Knows ack advertised := by
  obtain ⟨window, phase, events, outbox, rfl⟩ := eq_of_takeContent taken
  exact knows

theorem takeSynchronized_of_knows (plain : segment.header.flags.syn = false)
    (knows : segment.header.flags.ack = true →
      connection.Knows segment.header.ack segment.header.window) (now : Nat) :
    connection.takeSynchronized segment now =
      if segment.header.flags.ack && connection.isTerminated then .ok connection
      else connection.takeContent segment := by
  rw [takeSynchronized]
  cases acks : segment.header.flags.ack with
  | false => simp [plain, bind, Except.bind]
  | true => simp [plain, (knows acks).takeAck, bind, Except.bind, pure, Except.pure]

theorem repeats_of_syn (syn : segment.header.flags.syn = true) (now : Nat) :
    connection.Repeats (connection.takeSynchronized segment now) := by
  rw [takeSynchronized]
  simp only [syn, if_true, pure, Except.pure]
  split
  · exact Or.inr rfl
  · exact Or.inl rfl

/-- A segment on an agreed connection that arrives once more is acknowledged again at most. -/
theorem Rearrives.takeSynchronized (rearrives : connection.Rearrives segment) {now : Nat}
    (taken : connection.takeSynchronized segment now = .ok after) (later : Nat) :
    after.Repeats (after.takeSynchronized segment later) := by
  cases syn : segment.header.flags.syn with
  | true => exact repeats_of_syn syn later
  | false =>
      cases acks : segment.header.flags.ack with
      | false =>
          rw [takeSynchronized_of_knows syn (by simp [acks])] at taken ⊢
          simp only [acks, Bool.false_and, Bool.false_eq_true, if_false] at taken ⊢
          exact rearrives.takeContent taken
      | true =>
          rw [Connection.takeSynchronized] at taken
          simp only [syn, acks, Bool.false_eq_true, if_false, if_true, Bool.true_and] at taken
          obtain ⟨middle, acknowledged, taken⟩ := exists_of_bind_eq_ok taken
          have knows := knows_of_takeAck acknowledged
          split at taken
          next past =>
            obtain rfl := Except.ok.inj taken
            rw [takeSynchronized_of_knows syn fun _ => knows, acks, past]
            exact Or.inl rfl
          next =>
            rw [takeSynchronized_of_knows syn fun _ => knows.of_takeContent taken]
            split
            · exact Or.inl rfl
            · exact (rearrives.of_takeAck acknowledged).takeContent taken

theorem takeClosed_again (closed : connection.phase = .closed) {now : Nat}
    (taken : connection.takeClosed segment now = .ok after) (later : Nat) :
    after.takeSegment segment later = .ok after := by
  rw [takeClosed] at taken
  simp only at taken
  split at taken
  next welcome =>
    simp only [Bool.and_eq_true, decide_eq_true_eq] at welcome
    obtain ⟨sent, -, taken⟩ := exists_of_bind_eq_ok taken
    obtain rfl := Except.ok.inj taken
    simp [takeSegment, takeSynReceived, welcome.2]
  next unwelcome =>
    obtain rfl := Except.ok.inj taken
    simp only [takeSegment, closed, takeClosed, unwelcome]
    rfl

theorem takeSynSent_again (waiting : connection.phase = .synSent) {now : Nat}
    (taken : connection.takeSynSent segment now = .ok after) (later : Nat) :
    after.Repeats (after.takeSegment segment later) := by
  rw [takeSynSent] at taken
  simp only at taken
  split at taken
  next answers =>
    simp only [Bool.and_eq_true] at answers
    obtain ⟨middle, -, taken⟩ := exists_of_bind_eq_ok taken
    obtain rfl := Except.ok.inj taken
    exact repeats_of_syn answers.1.1 later
  next other =>
    obtain rfl := Except.ok.inj taken
    simp only [takeSegment, waiting, takeSynSent, other]
    exact Or.inl rfl

/-- What was taken on an agreed connection is taken again on what became of it. -/
theorem Repeats.takeSegment (synchronized : connection.phase.isSynchronized) {now : Nat}
    (taken : connection.takeSynchronized segment now = .ok after) {later : Nat}
    (repeats : after.Repeats (after.takeSynchronized segment later)) :
    after.Repeats (after.takeSegment segment later) := by
  have moved := takeSynchronized_phase synchronized taken
  rw [Connection.takeSegment]
  cases phase_eq : after.phase with
  | closed | synSent | synReceived =>
      cases before_eq : connection.phase <;>
        simp_all [Phase.isSynchronized, Phase.onSegment]
  | established | finWait1 | finWait2 | closeWait | lastAck | closing => exact repeats
  | terminated => exact Or.inl rfl

theorem takeSynReceived_again (waiting : connection.phase = .synReceived)
    (rearrives : connection.Rearrives segment) {now : Nat}
    (taken : connection.takeSynReceived segment now = .ok after) (later : Nat) :
    after.Repeats (after.takeSegment segment later) := by
  rw [takeSynReceived] at taken
  split at taken
  next =>
    have established : Rearrives { connection with phase := .established } segment :=
      ⟨rearrives.spans, rearrives.gap, rearrives.small⟩
    exact .takeSegment rfl taken (established.takeSynchronized taken later)
  next other =>
    obtain rfl := Except.ok.inj taken
    simp only [takeSegment, waiting, takeSynReceived, other]
    exact Or.inl rfl

theorem receive_again {raw : Bytes}
    (rearrives : ∀ segment, Segment.decode raw = .ok segment →
      connection.phase = .synReceived ∨ connection.phase.isSynchronized →
      connection.Rearrives segment)
    {now : Nat} (received : connection.receive raw now = .ok after) (later : Nat) :
    after.Repeats (after.receive raw later) := by
  rw [receive] at received ⊢
  split at received
  · next failed =>
      obtain rfl := Except.ok.inj received
      exact Or.inl rfl
  next segment decoded =>
  have rearrives := rearrives segment decoded
  have agreed (synchronized : connection.phase.isSynchronized)
      (taken : connection.takeSynchronized segment now = .ok after) :
      after.Repeats (after.takeSegment segment later) :=
    .takeSegment synchronized taken
      ((rearrives (Or.inr synchronized)).takeSynchronized taken later)
  rw [takeSegment] at received
  split at received
  · next closed => exact Or.inl (takeClosed_again closed received later)
  · next waiting => exact takeSynSent_again waiting received later
  · next waiting => exact takeSynReceived_again waiting (rearrives (Or.inl waiting)) received later
  all_goals first
    | next phase_eq => exact agreed (by rw [phase_eq]; rfl) received
    | next phase_eq =>
        obtain rfl := Except.ok.inj received
        rw [takeSegment, phase_eq]
        exact Or.inl rfl

end Connection
end ReliableTransport
