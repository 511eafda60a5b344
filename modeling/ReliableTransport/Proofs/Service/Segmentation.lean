import ReliableTransport.Proofs.Connection.Replies
import ReliableTransport.Proofs.Service.Life
import ReliableTransport.Proofs.Station.Coverage

/-!
# What a round queues

A round that leaves the endpoint waiting queues segments twice: first what the wakeup prompts, which
brings nothing of the stream that was not sent before, and then the pending data as far as it can be
sent.  The FIN follows the data once the application finished writing and nothing is pending.
-/

namespace ReliableTransport

open Fault

namespace Segment

/-- The part of the stream that a byte string carries. -/
def content (raw : Bytes) : Bytes :=
  match decode raw with
  | .ok segment => segment.payload
  | .error _ => []

/-- A byte string is a segment with data and without a SYN or a FIN. -/
def CarriesData (raw : Bytes) : Prop :=
  ∃ segment, decode raw = .ok segment ∧ segment.header.flags = { ack := true } ∧
    segment.payload ≠ []

/-- A byte string is a segment with a FIN alone. -/
def CarriesFin (raw : Bytes) : Prop :=
  ∃ segment, decode raw = .ok segment ∧ segment.header.flags = { fin := true, ack := true } ∧
    segment.payload = []

/-- A byte string brings nothing of a stream, neither data nor its end. -/
def Bare (raw : Bytes) : Prop :=
  ∀ segment, decode raw = .ok segment →
    segment.payload = [] ∧ segment.header.flags.fin = false

theorem content_encode (header : Header) (payload : Bytes) :
    content (encode header payload) = payload := by
  rw [content, decode_encode]

theorem bare_encode {header : Header} (plain : header.flags.fin = false) :
    Bare (encode header []) := by
  intro segment decoded
  rw [decode_encode] at decoded
  obtain rfl := Except.ok.inj decoded
  exact ⟨rfl, plain⟩

theorem CarriesData.content_ne {raw : Bytes} (carries : CarriesData raw) : content raw ≠ [] := by
  obtain ⟨segment, decoded, -, payload⟩ := carries
  rwa [content, decoded]

theorem CarriesData.not_finishes {raw : Bytes} (carries : CarriesData raw) : ¬ Finishes raw := by
  rintro ⟨segment, decoded, fin⟩
  obtain ⟨other, decoded', flags_eq, -⟩ := carries
  obtain rfl := Except.ok.inj (decoded.symm.trans decoded')
  simp [flags_eq] at fin

theorem CarriesFin.content_eq {raw : Bytes} (carries : CarriesFin raw) : content raw = [] := by
  obtain ⟨segment, decoded, -, payload⟩ := carries
  rwa [content, decoded]

theorem CarriesFin.finishes {raw : Bytes} (carries : CarriesFin raw) : Finishes raw := by
  obtain ⟨segment, decoded, flags_eq, -⟩ := carries
  exact ⟨segment, decoded, by rw [flags_eq]⟩

theorem eq_nil_of_content {queued : List Bytes} (data : ∀ raw ∈ queued, CarriesData raw)
    (nothing : queued.flatMap content = []) : queued = [] := by
  rw [List.flatMap_eq_nil_iff] at nothing
  exact List.eq_nil_iff_forall_not_mem.mpr fun raw mem => (data raw mem).content_ne (nothing raw mem)

end Segment

namespace Connection

variable {connection after : Connection} {now : Nat}

theorem flushWithin_queues {rounds : Nat} {pending rest : Bytes} {chunks : List Bytes}
    (flushed : connection.flushWithin rounds pending now = .ok (chunks, rest, after)) :
    ∃ queued, after.outbox = connection.outbox ++ queued ∧
      (∀ raw ∈ queued, Segment.CarriesData raw) ∧ pending = queued.flatMap Segment.content ++ rest := by
  induction rounds generalizing connection pending chunks rest with
  | zero =>
      obtain ⟨-, same⟩ := Prod.mk.inj (Except.ok.inj flushed)
      obtain ⟨rfl, rfl⟩ := Prod.mk.inj same
      exact ⟨[], by simp, by simp, rfl⟩
  | succ rounds ih =>
      rcases flushWithin_cases flushed with ⟨-, rfl, rfl⟩ | ⟨chunk_ne, middle, later, sent, again⟩
      · exact ⟨[], by simp, by simp, rfl⟩
      · obtain ⟨flight, sendNext, rfl⟩ :=
          (eq_of_sendChunk sent).2.resolve_left (fun idle => chunk_ne idle.1)
        obtain ⟨queued, outbox_eq, data, split⟩ := ih again
        refine ⟨Segment.encode (connection.header { ack := true }) (connection.nextChunk pending) ::
          queued, by rw [outbox_eq, List.append_assoc]; rfl, ?_, ?_⟩
        · rintro raw (_ | ⟨_, mem⟩)
          · exact ⟨_, Segment.decode_encode _ _, rfl, chunk_ne⟩
          · exact data raw mem
        · rw [List.flatMap_cons, Segment.content_encode, List.append_assoc, ← split]
          exact (connection.nextChunk_append_drop pending).symm

theorem nextChunk_nil (connection : Connection) : connection.nextChunk [] = [] := by
  rw [nextChunk]
  split
  · exact List.take_nil
  · rfl

theorem flushWithin_exhausts {rounds : Nat} {pending rest : Bytes} {chunks : List Bytes}
    (enough : pending.length ≤ rounds)
    (flushed : connection.flushWithin rounds pending now = .ok (chunks, rest, after)) :
    after.nextChunk rest = [] := by
  induction rounds generalizing connection pending chunks rest with
  | zero =>
      obtain ⟨-, same⟩ := Prod.mk.inj (Except.ok.inj flushed)
      obtain ⟨rfl, rfl⟩ := Prod.mk.inj same
      rw [List.eq_nil_of_length_eq_zero (Nat.le_zero.mp enough)]
      exact connection.nextChunk_nil
  | succ rounds ih =>
      rcases flushWithin_cases flushed with ⟨nothing, rfl, rfl⟩ | ⟨chunk_ne, middle, later, -, again⟩
      · exact nothing
      · have chunk_pos := List.length_pos_iff.mpr chunk_ne
        refine ih ?_ again
        rw [List.length_drop]
        omega

/-- A byte string is an outstanding segment with the current acknowledgment number. -/
def Resends (connection : Connection) (raw : Bytes) : Prop :=
  ∃ outstanding ∈ connection.flight.segments,
    Segment.patchAck outstanding.raw connection.recvNext = .ok raw

theorem Resends.of_mem_resent {segments : List Outstanding}
    (resent : connection.flight.segments.mapM (·.resend now connection.recvNext) = .ok segments)
    {again : Outstanding} (mem : again ∈ segments) : connection.Resends again.raw := by
  obtain ⟨outstanding, outstanding_mem, done⟩ := Outstanding.exists_of_mem_resent resent mem
  exact ⟨outstanding, outstanding_mem, (Outstanding.resend_eq done).2.2⟩

/-- Whatever a segment is answered by brings nothing of the stream. -/
theorem Replies.bare {raw answer : Bytes} (replies : connection.Replies raw after)
    (mem : answer ∈ after.outbox) : answer ∈ connection.outbox ∨ Segment.Bare answer := by
  cases replies with
  | silence outbox_eq => exact Or.inl (outbox_eq ▸ mem)
  | greeting _ _ _ _ _ outbox_eq | acknowledgment _ outbox_eq =>
      rw [outbox_eq, List.mem_append, List.mem_singleton] at mem
      refine mem.imp_right ?_
      rintro rfl
      exact Segment.bare_encode rfl

theorem queues_of_close (can : connection.canSend = true)
    (closed : connection.close now = .ok after) :
    ∃ fin, after.outbox = connection.outbox ++ [fin] ∧ Segment.CarriesFin fin ∧
      after.finSeq.isSome = true := by
  have opened : connection.phase = .established ∨ connection.phase = .closeWait := by
    have sending := isSending_of_canSend can
    cases phase_eq : connection.phase <;> simp_all [Phase.isSending]
  rcases opened with phase_eq | phase_eq
  all_goals
    simp only [close, phase_eq] at closed
    obtain ⟨sent, transmitted, closed⟩ := exists_of_bind_eq_ok closed
    obtain rfl := Except.ok.inj closed
    obtain ⟨flight, sendNext, rfl⟩ := eq_of_transmit transmitted
    exact ⟨_, rfl, ⟨_, Segment.decode_encode _ _, rfl, rfl⟩, rfl⟩

end Connection

namespace Endpoint

variable {endpoint awake middle : Endpoint} {round : Round} {now : Nat}

/-- Pending data was put into segments, and the FIN was queued behind it if it was time for it. -/
inductive Segments (awake : Endpoint) (middle : Endpoint) : List Bytes → Prop
  /-- The own direction stays as it is. -/
  | data {queued : List Bytes} : (∀ raw ∈ queued, Segment.CarriesData raw) →
      awake.pending = queued.flatMap Segment.content ++ middle.pending →
      middle.connection.phase = awake.connection.phase →
      middle.connection.finSeq = awake.connection.finSeq →
      (awake.writerClosed = true → middle.pending = [] → awake.connection.canSend = false) →
      Segments awake middle queued
  /-- The own direction is finished. -/
  | finish {queued : List Bytes} {fin : Bytes} : (∀ raw ∈ queued, Segment.CarriesData raw) →
      awake.pending = queued.flatMap Segment.content → middle.pending = [] →
      awake.writerClosed = true → Segment.CarriesFin fin →
      middle.connection.finSeq.isSome = true → Segments awake middle (queued ++ [fin])

/-- No byte is lost or invented on the way to the segments. -/
theorem Segments.bytes_eq {queued : List Bytes} (segments : awake.Segments middle queued) :
    awake.pending = queued.flatMap Segment.content ++ middle.pending := by
  cases segments with
  | data _ split_eq _ _ _ => exact split_eq
  | finish _ split_eq pending_eq _ carries _ => simp [split_eq, pending_eq, carries.content_eq]

/-- Putting pending data into segments queues them behind what is queued, and changes nothing but the
connection and what is pending. -/
theorem segments_of_segmentPending (segmented : awake.segmentPending now = .ok middle) :
    ∃ queued, middle.connection.outbox = awake.connection.outbox ++ queued ∧
      awake.Segments middle queued := by
  obtain ⟨⟨chunks, rest, flushed⟩, sent, segmented⟩ := exists_of_bind_eq_ok segmented
  obtain ⟨queued, outbox_eq, data, split_eq⟩ := Connection.flushWithin_queues sent
  obtain ⟨flight, sendNext, outbox, flushed_eq⟩ := Connection.flushWithin_frame sent
  have can_eq : flushed.canSend = awake.connection.canSend := by rw [flushed_eq]; rfl
  simp only at segmented
  split at segmented
  next finishes =>
    simp only [Bool.and_eq_true, List.isEmpty_iff] at finishes
    obtain ⟨⟨writerClosed, rfl⟩, can⟩ := finishes
    obtain ⟨connection, closed, segmented⟩ := exists_of_bind_eq_ok segmented
    obtain rfl := Except.ok.inj segmented
    obtain ⟨fin, queues, carries, known⟩ := Connection.queues_of_close can closed
    refine ⟨queued ++ [fin], ?_, .finish data (by simpa using split_eq) rfl writerClosed carries known⟩
    rw [queues, outbox_eq, List.append_assoc]
  next waits =>
    obtain rfl := Except.ok.inj segmented
    refine ⟨queued, outbox_eq, .data data split_eq (by rw [flushed_eq]) (by rw [flushed_eq]) ?_⟩
    rintro closed rfl
    simpa [closed, can_eq] using waits

theorem exhausted_of_segmentPending (segmented : awake.segmentPending now = .ok middle) :
    middle.connection.nextChunk middle.pending = [] := by
  obtain ⟨⟨chunks, rest, flushed⟩, sent, segmented⟩ := exists_of_bind_eq_ok segmented
  simp only at segmented
  split at segmented
  next finishes =>
    simp only [Bool.and_eq_true, List.isEmpty_iff] at finishes
    obtain ⟨connection, -, segmented⟩ := exists_of_bind_eq_ok segmented
    obtain rfl := Except.ok.inj segmented
    rw [finishes.1.2]
    exact connection.nextChunk_nil
  next =>
    obtain rfl := Except.ok.inj segmented
    exact Connection.flushWithin_exhausts (Nat.le_refl _) sent

/-- A round that leaves the endpoint waiting took the wakeup and made its turn. -/
theorem exists_of_serve (waits : (endpoint.serve round).activity = .running) :
    ∃ awake middle, endpoint.heed round = .ok (.ok (), awake) ∧
      awake.segmentPending round.later = .ok middle ∧ middle.connection.phase ≠ .terminated ∧
      endpoint.serve round = middle.handed := by
  have ends := endpoint.ends_serve round
  generalize endpoint.serve round = after at ends waits ⊢
  cases ends with
  | expires _ | fails _ _ _ _ => simp [fail] at waits
  | finishes _ _ _ => simp at waits
  | waits heeded segmented goes => exact ⟨_, _, heeded, segmented, goes, rfl⟩
  | crashes stopped => simp [stopped] at waits

/-- What a wakeup prompts the connection to queue, behind what is queued already. -/
def prompted (endpoint : Endpoint) (round : Round) : List Bytes :=
  match endpoint.heed round with
  | .ok (_, awake) => awake.connection.outbox
  | .error _ => []

/-- What is queued in a round when pending data is put into segments. -/
def fresh (endpoint : Endpoint) (round : Round) : List Bytes :=
  match endpoint.heed round with
  | .error _ => []
  | .ok (_, awake) =>
      match awake.segmentPending round.later with
      | .ok middle => middle.connection.outbox.drop awake.connection.outbox.length
      | .error _ => []

/-- What a wakeup prompts brings nothing of the stream, or is outstanding and sent again because its
time is up. -/
theorem prompted_cases (endpoint : Endpoint) (round : Round) :
    ∀ raw ∈ endpoint.prompted round, raw ∈ endpoint.connection.outbox ∨ Segment.Bare raw ∨
      round.wakeup = some .expired ∧ endpoint.connection.Resends raw := by
  intro raw mem
  rw [prompted] at mem
  split at mem
  next result awake heeded =>
    obtain ⟨connection, operated, rfl⟩ := heed_cases heeded
    rcases Round.operate_cases operated with
      ⟨-, rfl⟩ | ⟨-, bytes, -, received⟩ | ⟨woken, expired⟩
    · exact Or.inl mem
    · exact ((Connection.receive_replies received).bare mem).imp_right Or.inl
    · rcases Connection.expire_cases expired with
        ⟨-, rfl, -⟩ | ⟨-, rfl⟩ | ⟨segments, roundTrip, resent, -, rfl⟩
      · exact Or.inl mem
      · exact Or.inl mem
      · rcases List.mem_append.mp mem with old | new
        · exact Or.inl old
        · obtain ⟨again, again_mem, rfl⟩ := List.mem_map.mp new
          exact Or.inr (Or.inr ⟨woken, .of_mem_resent resent again_mem⟩)
  next => cases mem

end Endpoint
end ReliableTransport
