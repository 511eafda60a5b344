import ReliableTransport.Proofs.Connection.Transitions

/-!
# Content in two steps

Content is taken in two steps.  The payload arrives at the window, which may stop the connection if
it is too long to be counted.  What follows has a result in any case: a FIN at the expected position
is taken, and what occupies sequence numbers within the window is answered.
-/

namespace ReliableTransport

open Fault

/-- The position behind the payload of a segment, where the FIN is if there is one. -/
def Segment.finPosition (segment : Segment) : SeqNum :=
  segment.header.seq.advance (min segment.payload.length (UInt32.size - 1))

theorem Segment.finPosition_eq {segment : Segment} (counted : segment.payload.length < UInt32.size) :
    segment.finPosition = segment.header.seq.advance segment.payload.length := by
  rw [finPosition, Nat.min_eq_left (Nat.le_sub_one_of_lt counted)]

theorem Flags.span_empty (payloadLength : Nat) :
    ({} : Flags).span payloadLength = .ok (min payloadLength (UInt32.size - 1)) := by
  simp only [span, Bool.toNat_false, Nat.add_zero]
  refine if_pos ?_
  simp only [UInt32.size]
  omega

namespace Connection

variable {connection middle after : Connection} {segment : Segment} {inWindow : Bool}

/-- The application is told of the run that a payload brings, and a payload is within the window unless
it starts behind it. -/
theorem takePayload_eq (connection : Connection) (seq : SeqNum) (payload : Bytes) :
    connection.takePayload seq payload =
      (connection.window.receive seq payload).map fun (arrival, window) =>
        (decide (arrival ≠ .outOfWindow),
          { connection with
            window
            events := connection.events ++ AppEvent.tidings arrival.delivered false }) := by
  rw [takePayload]
  cases connection.window.receive seq payload with
  | error fault => rfl
  | ok received =>
      obtain ⟨arrival, window⟩ := received
      cases arrival <;>
        simp [bind, Except.bind, pure, Except.pure, Except.map, AppEvent.tidings, Arrival.delivered]

/-- The payload of a segment arrives, if there is one. -/
def arrive (connection : Connection) (segment : Segment) : Except Fault (Bool × Connection) :=
  if segment.payload.isEmpty then .ok (true, connection)
  else connection.takePayload segment.header.seq segment.payload

/-- A segment has a FIN at the next expected position. -/
def ExpectsFin (connection : Connection) (segment : Segment) : Prop :=
  segment.header.flags.fin = true ∧ segment.finPosition = connection.recvNext

instance (connection : Connection) (segment : Segment) : Decidable (connection.ExpectsFin segment) :=
  inferInstanceAs (Decidable (_ ∧ _))

/-- What follows when the payload of a segment has arrived. -/
def answer (connection : Connection) (segment : Segment) (inWindow : Bool) : Connection :=
  if !inWindow then connection
  else if connection.ExpectsFin segment then connection.takePeerFin.sendAck
  else if segment.header.flags.fin || !segment.payload.isEmpty then connection.sendAck
  else connection

theorem takeContent_eq (connection : Connection) (segment : Segment) :
    connection.takeContent segment =
      (connection.arrive segment).map fun (inWindow, middle) => middle.answer segment inWindow := by
  have answered (middle : Connection) (inWindow : Bool) :
      (do
        if !inWindow then
          return middle
        else if segment.header.flags.fin then
          let length ← ({} : Flags).span segment.payload.length
          let middle :=
            if segment.header.seq.advance length = middle.recvNext then middle.takePeerFin
            else middle
          return middle.sendAck
        else
          return if !segment.payload.isEmpty then middle.sendAck else middle : Except Fault _) =
        .ok (middle.answer segment inWindow) := by
    rw [Flags.span_empty]
    simp only [bind, Except.bind, pure, Except.pure, answer, ExpectsFin, Segment.finPosition]
    cases inWindow with
    | false => rfl
    | true =>
        by_cases fin : segment.header.flags.fin = true
        · simp only [fin, Bool.not_true, Bool.false_eq_true, if_false, if_true, true_and,
            Bool.true_or]
          split <;> rfl
        · simp [fin]
  rw [takeContent, arrive]
  simp only [answered]
  cases segment.payload.isEmpty with
  | true => rfl
  | false => cases connection.takePayload segment.header.seq segment.payload <;> rfl

theorem eq_of_arrive (arrived : connection.arrive segment = .ok (inWindow, middle)) :
    ∃ window events, middle = { connection with window, events } := by
  rw [arrive] at arrived
  split at arrived
  · obtain ⟨-, rfl⟩ := Prod.mk.inj (Except.ok.inj arrived)
    exact ⟨_, _, rfl⟩
  · rw [takePayload_eq] at arrived
    obtain ⟨received, -, arrived⟩ := exists_of_map_eq_ok arrived
    obtain ⟨-, rfl⟩ := Prod.mk.inj arrived
    exact ⟨_, _, rfl⟩

theorem length_lt_of_arrive (arrived : connection.arrive segment = .ok (inWindow, middle)) :
    segment.payload.length < UInt32.size := by
  rw [arrive] at arrived
  split at arrived
  next empty =>
    rw [List.isEmpty_iff.mp empty]
    exact Nat.two_pow_pos 32
  next =>
    rw [takePayload_eq] at arrived
    obtain ⟨received, taken, -⟩ := exists_of_map_eq_ok arrived
    exact ReceiveWindow.length_lt_of_receive taken

theorem takePeerFin_eq (connection : Connection) :
    ∃ phase events, connection.takePeerFin =
      { connection with window := connection.window.consumeFlag, phase, events } := by
  rw [takePeerFin]
  simp only
  split
  · exact ⟨_, _, rfl⟩
  · exact ⟨_, _, rfl⟩

theorem answer_of_expectsFin (expects : connection.ExpectsFin segment) :
    connection.answer segment true = connection.takePeerFin.sendAck := by
  rw [answer, if_neg (by decide), if_pos expects]

theorem answer_of_not_expectsFin (unexpected : inWindow = true → ¬ connection.ExpectsFin segment) :
    connection.answer segment inWindow = connection ∨
      connection.answer segment inWindow = connection.sendAck := by
  rw [answer]
  cases inWindow with
  | false => exact Or.inl rfl
  | true =>
      rw [if_neg (by decide), if_neg (unexpected rfl)]
      split
      · exact Or.inr rfl
      · exact Or.inl rfl

theorem answer_eq (connection : Connection) (segment : Segment) (inWindow : Bool) :
    ∃ window phase events outbox,
      connection.answer segment inWindow =
        { connection with window, phase, events, outbox } := by
  by_cases expects : inWindow = true ∧ connection.ExpectsFin segment
  · obtain ⟨rfl, expects⟩ := expects
    obtain ⟨phase, events, finished_eq⟩ := connection.takePeerFin_eq
    rw [answer_of_expectsFin expects, finished_eq]
    exact ⟨_, _, _, _, rfl⟩
  · rcases answer_of_not_expectsFin fun inside isFin => expects ⟨inside, isFin⟩ with same | echoed
    · exact ⟨_, _, _, _, same⟩
    · exact ⟨_, _, _, _, echoed⟩

/-- Content does not concern the sending side. -/
theorem eq_of_takeContent (taken : connection.takeContent segment = .ok after) :
    ∃ window phase events outbox, after = { connection with window, phase, events, outbox } := by
  rw [takeContent_eq] at taken
  obtain ⟨⟨inWindow, middle⟩, arrived, answered⟩ := exists_of_map_eq_ok taken
  obtain ⟨window, events, rfl⟩ := eq_of_arrive arrived
  obtain ⟨window, phase, events, outbox, answer_eq⟩ :=
    answer_eq { connection with window, events } segment inWindow
  exact ⟨window, phase, events, outbox, answered.symm.trans answer_eq⟩

theorem takeContent_error {fault : Fault} (failed : connection.takeContent segment = .error fault) :
    fault = .count ∧ UInt32.size ≤ segment.payload.length := by
  rw [takeContent_eq, arrive] at failed
  split at failed
  · cases failed
  next payload =>
    have payload_ne : segment.payload ≠ [] := by simpa using payload
    rw [takePayload_eq] at failed
    cases received : connection.window.receive segment.header.seq segment.payload with
    | ok outcome =>
        rw [received] at failed
        cases failed
    | error other =>
        rw [received] at failed
        obtain rfl := Except.error.inj failed
        exact (connection.window.receive_ensures _ payload_ne).of_error received

/-- A segment is answered by one acknowledgment of everything received so far. -/
def Acknowledges (before after : Connection) : Prop :=
  after.sendNext = before.sendNext ∧
    after.outbox = before.outbox ++
      [Segment.acknowledgment before.sendNext after.recvNext before.config.receiveWindow]

theorem acknowledges_answer (content : segment.payload ≠ [] ∨ segment.header.flags.fin = true) :
    connection.Acknowledges (connection.answer segment true) := by
  rw [answer, if_neg (by decide)]
  split
  next =>
    obtain ⟨phase, events, finished_eq⟩ := connection.takePeerFin_eq
    rw [finished_eq]
    exact ⟨rfl, rfl⟩
  next =>
    rw [if_pos (by simpa [or_comm] using content)]
    exact ⟨rfl, rfl⟩

theorem arrive_ensures (inside : segment.payload ≠ [] → ∀ rest,
    connection.window.receive segment.header.seq segment.payload ≠ .ok (.outOfWindow, rest)) :
    Ensures (fun fault => fault = .count ∧ UInt32.size ≤ segment.payload.length)
      (fun (inWindow, middle) =>
        inWindow = true ∧ ∃ window events, middle = { connection with window, events })
      (connection.arrive segment) := by
  rw [arrive]
  split
  next => exact ⟨rfl, _, _, rfl⟩
  next payload =>
    have payload_ne : segment.payload ≠ [] := by simpa using payload
    rw [takePayload_eq]
    cases received : connection.window.receive segment.header.seq segment.payload with
    | error fault => exact (connection.window.receive_ensures _ payload_ne).of_error received
    | ok outcome =>
        obtain ⟨arrival, window⟩ := outcome
        refine ⟨?_, window, _, rfl⟩
        simp only [decide_eq_true_eq]
        rintro rfl
        exact inside payload_ne window received

/-- Content within the window is answered. -/
theorem takeContent_answers (content : segment.payload ≠ [] ∨ segment.header.flags.fin = true)
    (inside : segment.payload ≠ [] → ∀ rest,
      connection.window.receive segment.header.seq segment.payload ≠ .ok (.outOfWindow, rest)) :
    Ensures (fun fault => fault = .count ∧ UInt32.size ≤ segment.payload.length)
      connection.Acknowledges (connection.takeContent segment) := by
  have ensures := arrive_ensures inside
  rw [takeContent_eq]
  cases arrived : connection.arrive segment with
  | error fault => exact ensures.of_error arrived
  | ok outcome =>
      obtain ⟨inWindow, middle⟩ := outcome
      obtain ⟨rfl, window, events, rfl⟩ := ensures.of_ok arrived
      exact acknowledges_answer content

/-- A segment without SYN on an agreed connection is an acknowledgment, which may end the connection,
and content. -/
theorem receive_eq (synchronized : connection.phase.isSynchronized) {raw : Bytes}
    (decoded : Segment.decode raw = .ok segment) (plain : segment.header.flags.syn = false)
    (now : Nat) :
    connection.receive raw now =
      if segment.header.flags.ack then do
        let middle ← connection.takeAck segment.header.ack segment.header.window now
        if middle.phase = .terminated then .ok middle else middle.takeContent segment
      else connection.takeContent segment := by
  have taken : connection.receive raw now = connection.takeSynchronized segment now := by
    simp only [receive, decoded, takeSegment]
    cases phase_eq : connection.phase <;>
      first | rfl | simp [phase_eq, Phase.isSynchronized] at synchronized
  rw [taken, takeSynchronized]
  cases acks : segment.header.flags.ack with
  | false => simp [plain, bind, Except.bind]
  | true => simp [plain, isTerminated, pure, Except.pure]

end Connection
end ReliableTransport
