import ReliableTransport.Proofs.Endpoint
import ReliableTransport.Stream

/-!
# Streams are ends of a network

What the application wrote and the stream accepted is what was taken for sending, what is pending
and what waits.  What the application read is what it was told up to its position.  Reading ends
behind the end of the peer's stream, behind a failure, or where the endpoint stopped.
-/

namespace ReliableTransport

open Fault

/-- The bytes of the stream that an event tells of. -/
def StreamEvent.bytes : StreamEvent → Bytes
  | data bytes => bytes
  | peerFinished | aborted _ => []

/-- The bytes of the stream that a read got. -/
def ReadOutcome.bytes : ReadOutcome → Bytes
  | data bytes => bytes
  | finished | failed _ | wouldBlock => []

/-- An endpoint ended by itself. -/
def Endpoint.Stopped (endpoint : Endpoint) : Prop :=
  (∃ result, endpoint.activity = .finished result) ∨ ∃ fault, endpoint.activity = .crashed fault

namespace Stream

/-- A stream did what an end of a network did, and what was written goes its way. -/
structure Mirrors (stream : Stream) (station : Station) (written : Bytes) : Prop where
  /-- The endpoint did what the end did. -/
  endpoint : stream.endpoint.Mirrors station
  /-- What was written is taken for sending, pending or waiting. -/
  written_eq : station.taken ++ stream.endpoint.pending ++ stream.writes.flatten = written
  /-- The endpoint knows that the application finished writing when it took everything. -/
  writer : stream.endpoint.writerClosed = true → stream.writable = false ∧ stream.writes = []
  /-- The own direction is finished when everything was taken for sending. -/
  closing : station.closing = true → stream.writable = false ∧ station.taken = written

/-- What a reader got is what it was told up to its position. -/
structure Reads (stream : Stream) (outcomes : List ReadOutcome) : Prop where
  /-- Only what was told can be read. -/
  position_le : stream.position ≤ stream.endpoint.events.length
  /-- The bytes are those that were told. -/
  bytes_eq : outcomes.flatMap ReadOutcome.bytes =
    (stream.endpoint.events.take stream.position).flatMap StreamEvent.bytes
  /-- A failure that was told is read. -/
  failed : ∀ failure, .aborted failure ∈ stream.endpoint.events.take stream.position →
    .failed failure ∈ outcomes
  /-- The end is read once reading ended. -/
  finished : .finished ∈ outcomes → stream.ended = true
  /-- Reading ends by a failure, by the end of the peer's stream, or where the endpoint stopped. -/
  ended : stream.ended = true → (∃ failure, .failed failure ∈ outcomes) ∨
    .peerFinished ∈ stream.endpoint.events.take stream.position ∨
    stream.endpoint.Stopped ∧ stream.position = stream.endpoint.events.length
  /-- Nothing is read before the handshake ended well. -/
  opened : outcomes ≠ [] → stream.endpoint.opened = some (.ok ())

/-- The endpoint of a stream moved, if it still ran. -/
structure Advances (stream after : Stream) : Prop where
  /-- The application did not read. -/
  position_eq : after.position = stream.position
  /-- Nor did the end of reading come nearer. -/
  ended_eq : after.ended = stream.ended
  /-- Nor did the application finish writing. -/
  writable_eq : after.writable = stream.writable
  /-- What was told stays. -/
  events : stream.endpoint.events <+: after.endpoint.events
  /-- What the opener was told stays. -/
  opened : ∀ result, stream.endpoint.opened = some result → after.endpoint.opened = some result
  /-- An endpoint that stopped does not move. -/
  stopped : stream.endpoint.activity ≠ .running → after.endpoint = stream.endpoint
  /-- Nobody gave up. -/
  kept : after.endpoint.activity = .abandoned → stream.endpoint.activity = .abandoned

theorem Advances.refl (stream : Stream) : stream.Advances stream :=
  ⟨rfl, rfl, rfl, List.prefix_refl _, fun _ => id, fun _ => rfl, id⟩

variable {stream after : Stream} {station : Station} {written : Bytes}
  {outcomes : List ReadOutcome} {incoming : List Bytes} {config : Config} {isn : SeqNum}

namespace Mirrors

/-- What follows a wakeup is part of the life of an end. -/
theorem respond (mirrors : stream.Mirrors station written)
    (arises : Station.Arises config isn station) {wakeup : Wakeup}
    (arrives : ∀ raw, wakeup = .received raw →
      raw ∈ incoming ∧ raw.length ≤ Endpoint.receiveLimit)
    {now : Nat} (awaits : stream.endpoint.awaits wakeup now = true) (turning : Nat)
    (failsAfter : Option Nat)
    {writes : List Bytes}
    (bytes_eq : (stream.endpoint.taking wakeup).pending ++ writes.flatten =
      stream.endpoint.pending ++ stream.writes.flatten)
    (writer : (stream.endpoint.taking wakeup).writerClosed = true →
      stream.writable = false ∧ writes = []) :
    ∃ later, Station.Becomes incoming station later ∧
      Mirrors { stream with endpoint := stream.endpoint.wake wakeup now turning failsAfter, writes }
        later
        written ∧
      stream.Advances
        { stream with endpoint := stream.endpoint.wake wakeup now turning failsAfter, writes } := by
  have running := Endpoint.running_of_awaits awaits
  obtain ⟨later, becomes, advances⟩ :=
    mirrors.endpoint.respond running arises wakeup arrives now turning failsAfter
  have written_eq : later.taken ++ (stream.endpoint.respond wakeup now turning failsAfter).pending ++
      writes.flatten = written := by
    rw [advances.bytes_eq, List.append_assoc, bytes_eq, ← List.append_assoc, mirrors.written_eq]
  rw [Endpoint.wake, if_pos awaits]
  refine ⟨later, becomes, ⟨advances.mirrors, written_eq, ?_, ?_⟩, ⟨rfl, rfl, rfl, ?_, ?_, ?_, ?_⟩⟩
  · rw [advances.writerClosed_eq]
    exact writer
  · intro closes
    rcases advances.closing closes with already | ⟨known, nothing⟩
    · -- everything was taken before, so nothing is left
      obtain ⟨unwritable, taken_eq⟩ := mirrors.closing already
      refine ⟨unwritable, ?_⟩
      have taken_le := becomes.taken_isPrefix.length_le
      have isFront : later.taken <+: written := by
        rw [← written_eq, List.append_assoc]
        exact List.prefix_append _ _
      rw [taken_eq] at taken_le
      exact isFront.eq_of_length_le taken_le
    · rw [advances.writerClosed_eq] at known
      obtain ⟨unwritable, rfl⟩ := writer known
      rw [nothing] at written_eq
      exact ⟨unwritable, by simpa using written_eq⟩
  · have told := (mirrors.endpoint.accords running).events_eq
    have heard := becomes.isPrefix.1.map StreamEvent.ofAppEvent
    simp only [told]
    rcases advances.mirrors.told with told' | ⟨failure, -, told'⟩
    · rw [told']
      exact heard
    · rw [told']
      exact heard.trans (List.prefix_append _ _)
  · intro result told
    refine advances.opened result ?_
    cases wakeup <;> exact told
  · exact fun stopped => absurd running stopped
  · exact fun gone => absurd gone advances.kept

/-- The endpoint takes what the channel of writes has. -/
theorem takeWrite (mirrors : stream.Mirrors station written)
    (arises : Station.Arises config isn station) (now turning : Nat)
    (failsAfter : Option Nat) :
    ∃ later, Station.Becomes incoming station later ∧
      (stream.takeWrite now turning failsAfter).Mirrors later written ∧
      stream.Advances (stream.takeWrite now turning failsAfter) := by
  rw [Stream.takeWrite]
  split
  · exact ⟨station, .refl station, mirrors, .refl stream⟩
  · next wakeup next =>
      split
      · next awaits =>
          rw [nextWrite?] at next
          split at next
          · next data rest writes_eq =>
              obtain rfl := Option.some.inj next
              refine mirrors.respond arises (by simp) awaits turning failsAfter ?_ ?_
              · simp [Endpoint.taking, writes_eq]
              · intro known
                obtain ⟨-, none⟩ := mirrors.writer known
                simp [writes_eq] at none
          · next writes_eq =>
              split at next
              · cases next
              · next unwritable =>
                  obtain rfl := Option.some.inj next
                  refine mirrors.respond arises (by simp) awaits turning failsAfter ?_ ?_
                  · simp [Endpoint.taking, writes_eq]
                  · exact fun _ => ⟨by simpa using unwritable, by simp [writes_eq]⟩
      · exact ⟨station, .refl station, mirrors, .refl stream⟩

/-- Any other wakeup. -/
theorem wake (mirrors : stream.Mirrors station written)
    (arises : Station.Arises config isn station) {wakeup : Wakeup}
    (arrives : ∀ raw, wakeup = .received raw →
      raw ∈ incoming ∧ raw.length ≤ Endpoint.receiveLimit)
    (unwritten : stream.endpoint.taking wakeup = stream.endpoint) (now turning : Nat)
    (failsAfter : Option Nat) :
    ∃ later, Station.Becomes incoming station later ∧
      (stream.wake wakeup now turning failsAfter).Mirrors later written ∧
      stream.Advances (stream.wake wakeup now turning failsAfter) := by
  by_cases awaits : stream.endpoint.awaits wakeup now = true
  · exact mirrors.respond arises arrives awaits turning failsAfter (by rw [unwritten])
      (by rw [unwritten]; exact mirrors.writer)
  · rw [Stream.wake, Endpoint.wake, if_neg awaits]
    exact ⟨station, .refl station, mirrors, .refl stream⟩

theorem write (mirrors : stream.Mirrors station written) (data : Bytes) :
    (stream.write data).2.Mirrors station
      (written ++ if (stream.write data).1 = .accepted then data else []) := by
  rw [Stream.write]
  split
  · simpa using mirrors
  split
  · simpa using mirrors
  split
  · simpa using mirrors
  next writable _ _ =>
    have writable : stream.writable ≠ false := by simpa using writable
    refine ⟨mirrors.endpoint, ?_, fun known => ?_, fun closes => ?_⟩
    · simp [← mirrors.written_eq]
    · exact absurd (mirrors.writer known).1 writable
    · exact absurd (mirrors.closing closes).1 writable

theorem close (mirrors : stream.Mirrors station written) : stream.close.Mirrors station written where
  endpoint := mirrors.endpoint
  written_eq := mirrors.written_eq
  writer known := ⟨rfl, (mirrors.writer known).2⟩
  closing closes := ⟨rfl, (mirrors.closing closes).2⟩

theorem seek (mirrors : stream.Mirrors station written) (position : Nat) (ended : Bool) :
    Mirrors { stream with position, ended } station written where
  endpoint := mirrors.endpoint
  written_eq := mirrors.written_eq
  writer := mirrors.writer
  closing := mirrors.closing

theorem drop (mirrors : stream.Mirrors station written) : stream.drop.Mirrors station written := by
  have endpoint := mirrors.endpoint.abandon
  rw [Stream.drop]
  rcases stream.endpoint.abandon_cases with same | ⟨-, gone⟩
  · rw [same]
    exact mirrors
  · rw [gone] at endpoint ⊢
    exact ⟨endpoint, mirrors.written_eq, mirrors.writer, mirrors.closing⟩

end Mirrors

namespace Reads

theorem advance (reads : stream.Reads outcomes) (advances : stream.Advances after) :
    after.Reads outcomes := by
  obtain ⟨more, events_eq⟩ := advances.events
  have take_eq : after.endpoint.events.take after.position =
      stream.endpoint.events.take stream.position := by
    rw [advances.position_eq, ← events_eq, List.take_append_of_le_length reads.position_le]
  refine ⟨?_, ?_, ?_, ?_, fun past => ?_, fun some => ?_⟩
  · rw [advances.position_eq, ← events_eq, List.length_append]
    exact Nat.le_add_right_of_le reads.position_le
  · rw [take_eq]
    exact reads.bytes_eq
  · rw [take_eq]
    exact reads.failed
  · rw [advances.ended_eq]
    exact reads.finished
  · rw [advances.ended_eq] at past
    rw [take_eq]
    refine (reads.ended past).imp_right (Or.imp_right fun ⟨stopped, all⟩ => ?_)
    have still : stream.endpoint.activity ≠ .running := by
      rcases stopped with ⟨result, same⟩ | ⟨fault, same⟩
      · simp [same]
      · simp [same]
    rw [advances.stopped still, advances.position_eq]
    exact ⟨stopped, all⟩
  · exact advances.opened _ (reads.opened some)

theorem drop (reads : stream.Reads outcomes) : stream.drop.Reads outcomes := by
  rw [Stream.drop]
  rcases stream.endpoint.abandon_cases with same | ⟨running, gone⟩
  · rw [same]
    exact reads
  · rw [gone]
    refine { reads with ended := fun past => ?_ }
    refine (reads.ended past).imp_right (Or.imp_right fun ⟨stopped, _⟩ => ?_)
    rcases stopped with ⟨result, same⟩ | ⟨fault, same⟩
    · simp [same] at running
    · simp [same] at running

theorem of_eq (reads : stream.Reads outcomes) (endpoint_eq : after.endpoint = stream.endpoint)
    (position_eq : after.position = stream.position) (ended_eq : after.ended = stream.ended) :
    after.Reads outcomes := by
  obtain ⟨endpoint, writes, writable, position, ended⟩ := after
  subst endpoint_eq position_eq ended_eq
  exact { reads with position_le := reads.position_le }

theorem pause (reads : stream.Reads outcomes) (opened : stream.endpoint.opened = some (.ok ()))
    {outcome : ReadOutcome} (silent : outcome.bytes = [])
    (past : outcome = .finished → stream.ended = true) :
    stream.Reads (outcomes ++ [outcome]) where
  position_le := reads.position_le
  bytes_eq := by simpa [silent] using reads.bytes_eq
  failed failure told := List.mem_append_left _ (reads.failed failure told)
  finished mem := by
    rcases List.mem_append.mp mem with mem | mem
    · exact reads.finished mem
    · exact past (List.mem_singleton.mp mem).symm
  ended past := by
    refine (reads.ended past).imp_left fun ⟨failure, read⟩ => ?_
    exact ⟨failure, List.mem_append_left _ read⟩
  opened _ := opened

theorem next (reads : stream.Reads outcomes) (opened : stream.endpoint.opened = some (.ok ()))
    (going : stream.ended = false) {event : StreamEvent} {rest : List StreamEvent}
    (unread_eq : stream.unread = event :: rest) {outcome : ReadOutcome} {past : Bool}
    (bytes_eq : outcome.bytes = event.bytes)
    (fails : ∀ failure, event = .aborted failure → outcome = .failed failure)
    (finishes : outcome = .finished → past = true)
    (ends : past = true → (∃ failure, outcome = .failed failure) ∨ event = .peerFinished) :
    Reads { stream with position := stream.position + 1, ended := past }
      (outcomes ++ [outcome]) := by
  have found : stream.endpoint.events[stream.position]? = some event := by
    rw [← List.head?_drop, ← unread, unread_eq, List.head?_cons]
  obtain ⟨inside, -⟩ := List.getElem?_eq_some_iff.mp found
  have take_eq : stream.endpoint.events.take (stream.position + 1) =
      stream.endpoint.events.take stream.position ++ [event] := by
    rw [List.take_add_one, found]
    rfl
  refine ⟨inside, ?_, fun failure told => ?_, fun mem => ?_, fun ended => ?_, fun _ => opened⟩
  · simp only [take_eq, List.flatMap_append, reads.bytes_eq, List.flatMap_singleton, bytes_eq]
  · simp only [take_eq, List.mem_append, List.mem_singleton] at told
    rcases told with told | told
    · exact List.mem_append_left _ (reads.failed failure told)
    · exact List.mem_append_right _ (List.mem_singleton.mpr (fails failure told.symm).symm)
  · rcases List.mem_append.mp mem with mem | mem
    · exact absurd (reads.finished mem) (by simp [going])
    · exact finishes (List.mem_singleton.mp mem).symm
  · simp only [take_eq]
    rcases ends ended with ⟨failure, rfl⟩ | rfl
    · exact Or.inl ⟨failure, by simp⟩
    · exact Or.inr (Or.inl (by simp))

/-- A read continues what was read. -/
theorem read (reads : stream.Reads outcomes) (opened : stream.endpoint.opened = some (.ok ()))
    (kept : stream.endpoint.activity ≠ .abandoned) :
    stream.read.2.Reads (outcomes ++ [stream.read.1]) := by
  rw [Stream.read]
  split
  · next past => exact reads.pause opened rfl fun _ => past
  next going =>
    have going : stream.ended = false := by simpa using going
    split
    · next data rest unread_eq =>
        exact reads.next opened going unread_eq rfl (by simp) (by simp) (by simp [going])
    · next rest unread_eq =>
        exact reads.next opened going unread_eq rfl (by simp) (fun _ => rfl) fun _ => Or.inr rfl
    · next failure rest unread_eq =>
        refine reads.next opened going unread_eq rfl (fun other same => ?_) (fun _ => rfl)
          fun _ => Or.inl ⟨failure, rfl⟩
        rw [StreamEvent.aborted.inj same]
    · next unread_eq =>
        split
        · exact reads.pause opened rfl (by simp)
        · next stopped =>
            rw [Endpoint.isRunning_iff] at stopped
            have all : stream.position = stream.endpoint.events.length := by
              rw [unread, List.drop_eq_nil_iff] at unread_eq
              exact Nat.le_antisymm reads.position_le unread_eq
            have ended : stream.endpoint.Stopped := by
              cases activity_eq : stream.endpoint.activity with
              | running => exact absurd activity_eq stopped
              | finished result => exact Or.inl ⟨result, activity_eq⟩
              | crashed fault => exact Or.inr ⟨fault, activity_eq⟩
              | abandoned => exact absurd activity_eq kept
            have past : Reads { stream with ended := true } outcomes :=
              { reads with
                finished := fun _ => rfl
                ended := fun _ => Or.inr (Or.inr ⟨ended, all⟩) }
            exact past.pause opened rfl fun _ => rfl

end Reads

/-- The connection of a stream is asked for or welcomed. -/
theorem initiate_spec {config : Config} {isn : SeqNum} {connection : Connection}
    (created : Connection.create config isn = .ok connection) (role : Role) (now : Nat)
    (incoming : List Bytes) :
    ∃ after, initiate role config isn now = .ok after ∧ after.phase ≠ .terminated ∧
      Station.Becomes incoming { connection } { connection := after } := by
  have sound := (Station.Sound.create created).connection
  have closed : connection.phase = .closed := by
    obtain ⟨window, -, rfl⟩ := Connection.eq_of_create created
    rfl
  let station : Station := { connection }
  rw [initiate, created]
  cases role with
  | active =>
      obtain ⟨after, asked, -⟩ := sound.openActive now
      have applied : station.connection.apply .openActive now = .ok after := asked
      have becomes := Station.Becomes.of_apply incoming applied (by simp)
      simp only [Connection.takenBy, List.append_nil, reduceCtorEq, decide_false,
        Bool.or_false] at becomes
      refine ⟨after, asked, ?_, becomes⟩
      have asked : connection.openActive now = .ok after := asked
      rw [Connection.openActive, if_pos closed] at asked
      obtain ⟨transmitted, -, asked⟩ := exists_of_bind_eq_ok asked
      obtain rfl := Except.ok.inj asked
      exact Phase.noConfusion
  | passive =>
      have applied : station.connection.apply .listen now = .ok connection.listen := rfl
      have becomes := Station.Becomes.of_apply incoming applied (by simp)
      simp only [Connection.takenBy, List.append_nil, reduceCtorEq, decide_false,
        Bool.or_false] at becomes
      refine ⟨connection.listen, rfl, ?_, becomes⟩
      rw [Connection.listen, closed]
      exact Phase.noConfusion

/-- The connection of a stream is that of an end, goes on and has told nothing. -/
theorem arises_of_initiate {role : Role} {config : Config} {isn : SeqNum} {now : Nat}
    {connection : Connection} (initiated : initiate role config isn now = .ok connection) :
    Station.Arises config isn { connection } ∧ connection.phase ≠ .terminated ∧
      connection.events = [] := by
  obtain ⟨created, created_eq, opened⟩ := exists_of_bind_eq_ok initiated
  obtain ⟨after, initiated', goes, becomes⟩ := initiate_spec created_eq role now []
  obtain rfl := Except.ok.inj (initiated.symm.trans initiated')
  refine ⟨becomes.arises ⟨created, [], created_eq, rfl⟩, goes, ?_⟩
  obtain ⟨window, -, rfl⟩ := Connection.eq_of_create created_eq
  cases role with
  | active =>
      obtain ⟨asking, transmitted, opened⟩ := exists_of_bind_eq_ok opened
      obtain rfl := Except.ok.inj opened
      obtain ⟨flight, sendNext, rfl⟩ := Connection.eq_of_transmit transmitted
      rfl
  | passive =>
      obtain rfl := Except.ok.inj opened
      rfl

theorem start_cases {role : Role} {config : Config} {isn : SeqNum} {now : Nat}
    {later : Nat} {failsAfter : Option Nat} {stream : Stream}
    (started : start role config isn now later failsAfter = .ok stream) :
    ∃ connection, initiate role config isn now = .ok connection ∧
      stream = { endpoint := .start connection later failsAfter } := by
  rw [start] at started
  split at started
  · cases started
  · split at started
    · cases started
    · next connection initiated =>
        obtain rfl := Except.ok.inj started
        exact ⟨connection, initiated, rfl⟩

theorem write_eq (stream : Stream) (data : Bytes) :
    ∃ writes, (stream.write data).2 = { stream with writes } := by
  rw [write]
  split
  · exact ⟨_, rfl⟩
  split
  · exact ⟨_, rfl⟩
  split
  · exact ⟨_, rfl⟩
  · exact ⟨_, rfl⟩

theorem read_eq (stream : Stream) :
    ∃ position ended, stream.read.2 = { stream with position, ended } := by
  rw [read]
  split
  · exact ⟨_, _, rfl⟩
  split
  · exact ⟨_, _, rfl⟩
  · exact ⟨_, _, rfl⟩
  · exact ⟨_, _, rfl⟩
  · split
    · exact ⟨_, _, rfl⟩
    · exact ⟨_, _, rfl⟩

theorem eq_of_read_wouldBlock (blocked : stream.read = (.wouldBlock, after)) : after = stream := by
  rw [read] at blocked
  split at blocked
  · simp at blocked
  split at blocked
  · simp at blocked
  · simp at blocked
  · simp at blocked
  · split at blocked
    · exact (Prod.mk.inj blocked).2.symm
    · simp at blocked

theorem readWithin_eq (stream : Stream) (rounds : Nat) :
    ∃ position ended, (stream.readWithin rounds).2 = { stream with position, ended } := by
  induction rounds generalizing stream with
  | zero => exact ⟨stream.position, stream.ended, rfl⟩
  | succ rounds ih =>
      obtain ⟨position, ended, after_eq⟩ := stream.read_eq
      rw [readWithin]
      rcases read_eq : stream.read with ⟨outcome, after⟩
      rw [read_eq] at after_eq
      subst after_eq
      cases outcome with
      | data bytes => exact ih _
      | wouldBlock => exact ⟨position, ended, rfl⟩
      | finished => exact ⟨position, ended, rfl⟩
      | failed failure => exact ⟨position, ended, rfl⟩

theorem Reads.readWithin (reads : stream.Reads outcomes)
    (opened : stream.endpoint.opened = some (.ok ()))
    (kept : stream.endpoint.activity ≠ .abandoned) (rounds : Nat) :
    (stream.readWithin rounds).2.Reads (outcomes ++ (stream.readWithin rounds).1) := by
  induction rounds generalizing stream outcomes with
  | zero =>
      rw [Stream.readWithin, List.append_nil]
      exact reads
  | succ rounds ih =>
      have reads' := reads.read opened kept
      obtain ⟨position, ended, after_eq⟩ := stream.read_eq
      rw [Stream.readWithin]
      rcases read_eq : stream.read with ⟨outcome, after⟩
      rw [read_eq] at reads' after_eq
      subst after_eq
      cases outcome with
      | data bytes =>
          have rest := ih reads' opened kept
          rw [List.append_assoc] at rest
          exact rest
      | wouldBlock =>
          have same := eq_of_read_wouldBlock read_eq
          simp only [List.append_nil, same]
          exact reads
      | finished => exact reads'
      | failed failure => exact reads'

end Stream
end ReliableTransport
