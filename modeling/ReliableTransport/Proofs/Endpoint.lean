import ReliableTransport.Endpoint
import ReliableTransport.Proofs.Network.Estimates
import ReliableTransport.Proofs.Station.Course

/-!
# Endpoints are ends of a network

What an endpoint does is part of the life of an end of a network: the carrier accepts what is taken
from the outbox, and the application is told what is heard.  An endpoint that stops in order has told
of the end of the peer's stream, one that fails tells so last, and otherwise only a fault of time or
of a count stops it.
-/

namespace ReliableTransport

namespace Connection

variable {connection after : Connection} {now : Nat}

theorem sendChunk_cases {pending chunk : Bytes}
    (sent : connection.sendChunk pending now = .ok (chunk, after)) :
    ∃ flight sendNext outbox, after = { connection with flight, sendNext, outbox } := by
  rcases (eq_of_sendChunk sent).2 with ⟨-, rfl⟩ | ⟨flight, sendNext, rfl⟩
  · exact ⟨_, _, _, rfl⟩
  · exact ⟨_, _, _, rfl⟩

theorem phase_ne_terminated_of_close (can : connection.canSend)
    (closed : connection.close now = .ok after) : after.phase ≠ .terminated := by
  have sending := isSending_of_canSend can
  rcases eq_of_close closed with rfl | ⟨handshaking, -⟩ | ⟨opened, flight, sendNext, rfl⟩
  · exact Phase.ne_terminated_of_synchronized (Phase.synchronized_of_sending sending)
  · rcases handshaking with phase_eq | phase_eq <;> simp [phase_eq, Phase.isSending] at sending
  · rcases opened with phase_eq | phase_eq | phase_eq <;> simp [phase_eq]

theorem nextChunk_append_drop (connection : Connection) (pending : Bytes) :
    connection.nextChunk pending ++ pending.drop (connection.nextChunk pending).length =
      pending := by
  rw [← List.prefix_iff_eq_append, nextChunk]
  split
  · exact List.take_prefix _ _
  · exact List.nil_prefix

end Connection

namespace Station

variable {station : Station} {config : Config} {isn : SeqNum}

/-- Pending bytes are sent as far as possible. -/
theorem Arises.flushWithin (arises : Arises config isn station) (incoming : List Bytes)
    (rounds : Nat) (pending : Bytes) (now : Nat) :
    ∃ chunks rest connection,
      station.connection.flushWithin rounds pending now = .ok (chunks, rest, connection) ∧
      chunks.flatten ++ rest = pending ∧ connection.phase = station.connection.phase ∧
      connection.events = station.connection.events ∧
      Becomes incoming station
        { station with connection, taken := station.taken ++ chunks.flatten } := by
  induction rounds generalizing station pending with
  | zero =>
      refine ⟨[], pending, station.connection, rfl, rfl, rfl, rfl, ?_⟩
      rw [List.flatten_nil, List.append_nil]
      exact .refl station
  | succ rounds ih =>
      obtain ⟨ledger, settled, sound⟩ := arises.sound
      obtain ⟨after, sent, -⟩ := sound.connection.sendChunk pending now
      obtain ⟨flight, sendNext, outbox, after_eq⟩ := Connection.sendChunk_cases sent
      have applied : station.connection.apply (.send pending) now = .ok after := by
        rw [Connection.apply, sent]
        rfl
      have becomes := Becomes.of_apply incoming applied (by simp)
      simp only [Connection.takenBy, reduceCtorEq, decide_false, Bool.or_false] at becomes
      by_cases empty : station.connection.nextChunk pending = []
      · refine ⟨[], pending, after, ?_, rfl, by rw [after_eq], by rw [after_eq], ?_⟩
        · rw [Connection.flushWithin, sent, empty]
          rfl
        · rw [empty] at becomes
          exact becomes
      · obtain ⟨chunks, rest, last, flushed, split, phase_eq, events_eq, later⟩ :=
          ih (becomes.arises arises)
            (pending.drop (station.connection.nextChunk pending).length)
        refine ⟨station.connection.nextChunk pending :: chunks, rest, last, ?_, ?_, ?_, ?_, ?_⟩
        · rw [Connection.flushWithin, sent]
          simp only [bind, Except.bind, List.isEmpty_iff, empty, if_false]
          rw [flushed]
          rfl
        · rw [List.flatten_cons, List.append_assoc, split]
          exact station.connection.nextChunk_append_drop pending
        · rw [phase_eq, after_eq]
        · rw [events_eq, after_eq]
        · rw [List.flatten_cons, ← List.append_assoc]
          exact becomes.trans later

end Station

namespace Endpoint

/-- A running endpoint did what an end of a network did.  If its connection is over, the end of the
peer's stream was told of. -/
structure Accords (endpoint : Endpoint) (station : Station) : Prop where
  /-- The endpoint runs. -/
  running : endpoint.activity = .running
  /-- The connection is the same. -/
  connection_eq : endpoint.connection = station.connection
  /-- The carrier accepted what was taken from the outbox. -/
  sent_eq : endpoint.sent = station.wire
  /-- The application was told what was heard. -/
  events_eq : endpoint.events = station.heard.map .ofAppEvent
  /-- The end of the connection comes behind the end of the peer's stream. -/
  concluded : station.connection.phase = .terminated → .peerFinished ∈ station.events

/-- The faults that can stop an endpoint: a time or a count leaves its range. -/
def Overflow (fault : Fault) : Prop :=
  fault = .duration ∨ fault = .instant ∨ fault = .count

/-- An endpoint between two turns did what an end of a network did. -/
structure Mirrors (endpoint : Endpoint) (station : Station) : Prop where
  /-- The carrier accepted what was taken from the outbox. -/
  sent_eq : endpoint.sent = station.wire
  /-- The application was told what was heard, and of a failure at most behind it. -/
  told : endpoint.events = station.heard.map .ofAppEvent ∨
    ∃ failure, endpoint.activity = .finished (.error failure) ∧
      endpoint.events = station.heard.map .ofAppEvent ++ [.aborted failure]
  /-- While the endpoint runs, it has the connection of the end, and nothing waits. -/
  resting : endpoint.activity = .running →
    endpoint.connection = station.connection ∧ station.connection.outbox = [] ∧
      station.connection.events = [] ∧ station.connection.phase ≠ .terminated
  /-- An orderly end comes behind the end of the peer's stream. -/
  finished : endpoint.activity = .finished (.ok ()) → .peerFinished ∈ station.heard
  /-- A failure is told to the opener or, at last, to the application. -/
  failed : ∀ failure, endpoint.activity = .finished (.error failure) →
    endpoint.opened = some (.error failure) ∨
      endpoint.events = station.heard.map .ofAppEvent ++ [.aborted failure]
  /-- Only an overflow is a fault. -/
  crashed : ∀ fault, endpoint.activity = .crashed fault → Overflow fault

/-- An endpoint has gone on, and the end of a network with it. -/
structure Advances (endpoint after : Endpoint) (station later : Station) : Prop where
  /-- The endpoint did what the end did. -/
  mirrors : after.Mirrors later
  /-- No byte is lost or invented on the way to the segments. -/
  bytes_eq : later.taken ++ after.pending = station.taken ++ endpoint.pending
  /-- The own direction is finished on request, behind all bytes. -/
  closing : later.closing = true →
    station.closing = true ∨ after.writerClosed = true ∧ after.pending = []
  /-- What is known of the writer stays. -/
  writerClosed_eq : after.writerClosed = endpoint.writerClosed
  /-- What the opener was told stays. -/
  opened : ∀ result, endpoint.opened = some result → after.opened = some result
  /-- Nobody gave up. -/
  kept : after.activity ≠ .abandoned

variable {endpoint : Endpoint} {station : Station} {incoming : List Bytes} {config : Config}
  {isn : SeqNum}

theorem isRunning_iff (endpoint : Endpoint) :
    endpoint.isRunning = true ↔ endpoint.activity = .running := by
  rw [isRunning]
  split
  · next running => simp [running]
  · next other => simpa using other

theorem running_of_awaits {wakeup : Wakeup} {now : Nat}
    (awaits : endpoint.awaits wakeup now = true) : endpoint.activity = .running := by
  simp only [Endpoint.awaits, Bool.and_eq_true, isRunning_iff] at awaits
  exact awaits.1

namespace Accords

/-- Pending bytes are put into segments, and the own direction is finished behind them. -/
theorem segmentPending (accords : endpoint.Accords station)
    (arises : Station.Arises config isn station) (incoming : List Bytes) (now : Nat) :
    ∃ after later, endpoint.segmentPending now = .ok after ∧
      Station.Becomes incoming station later ∧ after.Accords later ∧
      later.taken ++ after.pending = station.taken ++ endpoint.pending ∧
      (later.closing = true →
        station.closing = true ∨ after.writerClosed = true ∧ after.pending = []) ∧
      after.writerClosed = endpoint.writerClosed ∧ after.opened = endpoint.opened := by
  obtain ⟨chunks, rest, connection, flushed, split, phase_eq, events_eq, becomes⟩ :=
    arises.flushWithin incoming endpoint.pending.length endpoint.pending now
  let flushedStation : Station :=
    { station with connection, taken := station.taken ++ chunks.flatten }
  have bytes_eq : station.taken ++ chunks.flatten ++ rest = station.taken ++ endpoint.pending := by
    rw [List.append_assoc, split]
  have concluded : connection.phase = .terminated → .peerFinished ∈ flushedStation.events := by
    intro ended
    have told := accords.concluded (phase_eq ▸ ended)
    simp only [Station.events, flushedStation, events_eq]
    exact told
  rw [← accords.connection_eq] at flushed
  have flushed : endpoint.connection.flush endpoint.pending now = .ok (chunks, rest, connection) :=
    flushed
  rw [Endpoint.segmentPending, flushed]
  simp only [bind, Except.bind]
  split
  · next finishes =>
      simp only [Bool.and_eq_true, List.isEmpty_iff] at finishes
      obtain ⟨⟨writerClosed, rfl⟩, can⟩ := finishes
      obtain ⟨ledger, settled, sound⟩ := (becomes.arises arises).sound
      obtain ⟨closed, closed_eq, -⟩ := sound.connection.close now
      have applied : flushedStation.connection.apply .close now = .ok closed := closed_eq
      have ended := Station.Becomes.of_apply incoming applied (by simp)
      simp only [Connection.takenBy, List.append_nil, decide_true, Bool.or_true] at ended
      have closed_eq : connection.close now = .ok closed := closed_eq
      rw [closed_eq]
      refine ⟨_, _, rfl, becomes.trans ended, ⟨accords.running, rfl, accords.sent_eq,
        accords.events_eq, ?_⟩, bytes_eq, fun _ => Or.inr ⟨writerClosed, rfl⟩, rfl, rfl⟩
      exact fun past => absurd past (Connection.phase_ne_terminated_of_close can closed_eq)
  · exact ⟨_, flushedStation, rfl, becomes, ⟨accords.running, rfl, accords.sent_eq,
      accords.events_eq, concluded⟩, bytes_eq, Or.inl, rfl, rfl⟩

end Accords

theorem notifyOpener_eq (endpoint : Endpoint) :
    ∃ opened, endpoint.notifyOpener = { endpoint with opened } ∧
      ∀ result, endpoint.opened = some result → opened = some result := by
  rw [notifyOpener]
  split
  · exact ⟨endpoint.opened, rfl, fun _ => id⟩
  next unknown =>
    have known (opened : Option (Except Failure Unit)) :
        ∀ result, endpoint.opened = some result → opened = some result := by
      intro result told
      simp [told] at unknown
    split
    · exact ⟨_, rfl, known _⟩
    split
    · exact ⟨_, rfl, known _⟩
    · exact ⟨endpoint.opened, rfl, known _⟩

theorem rest_eq (endpoint : Endpoint) :
    endpoint.rest = { endpoint with activity := .finished (.ok ()) } ∧
        endpoint.connection.phase = .terminated ∨
      endpoint.connection.phase ≠ .terminated ∧
        (endpoint.rest = endpoint ∨
          endpoint.rest = { endpoint with activity := .crashed .instant }) := by
  rw [rest]
  split
  · next past => exact Or.inl ⟨rfl, by simpa [Connection.isTerminated] using past⟩
  · next goes =>
      refine Or.inr ⟨by simpa [Connection.isTerminated] using goes, ?_⟩
      split
      · exact Or.inl rfl
      · next fault failed =>
          right
          rw [Connection.alarm, Flight.alarm] at failed
          cases expires :
              endpoint.connection.flight.deadline? endpoint.connection.roundTrip.timeout with
          | none =>
              rw [expires] at failed
              cases failed
          | some deadline =>
              rw [expires, Option.mapM_some, Time.checked] at failed
              split at failed
              · cases failed
              · obtain rfl := Except.error.inj failed
                rfl

theorem fail_of_untold (untold : endpoint.opened = none) (failure : Failure) :
    endpoint.fail failure =
      { endpoint with
        opened := some (.error failure)
        connection := endpoint.connection.abort
        activity := .finished (.error failure) } := by
  simp only [Endpoint.fail, untold]

theorem fail_of_told {answer : Except Failure Unit} (told : endpoint.opened = some answer)
    (failure : Failure) :
    endpoint.fail failure =
      { endpoint with
        events := endpoint.events ++ [StreamEvent.aborted failure]
        connection := endpoint.connection.abort
        activity := .finished (.error failure) } := by
  simp only [Endpoint.fail, told]

/-- Within a turn, an endpoint and the end of a network have gone on alike. -/
structure Tallies (before endpoint : Endpoint) (station later : Station) : Prop where
  /-- The carrier accepted what was taken from the outbox. -/
  sent_eq : endpoint.sent = later.wire
  /-- The application was told what was heard. -/
  events_eq : endpoint.events = later.heard.map .ofAppEvent
  /-- No byte is lost or invented on the way to the segments. -/
  bytes_eq : later.taken ++ endpoint.pending = station.taken ++ before.pending
  /-- The own direction is finished on request, behind all bytes. -/
  closing : later.closing = true →
    station.closing = true ∨ endpoint.writerClosed = true ∧ endpoint.pending = []
  /-- What is known of the writer stays. -/
  writerClosed_eq : endpoint.writerClosed = before.writerClosed
  /-- What the opener was told stays. -/
  opened : ∀ result, before.opened = some result → endpoint.opened = some result

namespace Tallies

variable {before : Endpoint} {later : Station}

/-- An endpoint rests with an empty outbox and without events. -/
theorem rest (tallies : Tallies before endpoint station later)
    (running : endpoint.activity = .running)
    (connection_eq : endpoint.connection = later.connection)
    (outbox_eq : later.connection.outbox = []) (quiet : later.connection.events = [])
    (goes : later.connection.phase ≠ .terminated) : before.Advances endpoint station later where
  mirrors :=
    { sent_eq := tallies.sent_eq
      told := Or.inl tallies.events_eq
      resting := fun _ => ⟨connection_eq, outbox_eq, quiet, goes⟩
      finished := by simp [running]
      failed := by simp [running]
      crashed := by simp [running] }
  bytes_eq := tallies.bytes_eq
  closing := tallies.closing
  writerClosed_eq := tallies.writerClosed_eq
  opened := tallies.opened
  kept := by simp [running]

theorem finish (tallies : Tallies before endpoint station later)
    (told : .peerFinished ∈ later.heard) :
    before.Advances { endpoint with activity := .finished (.ok ()) } station later where
  mirrors := ⟨tallies.sent_eq, Or.inl tallies.events_eq, by simp, fun _ => told, by simp, by simp⟩
  bytes_eq := tallies.bytes_eq
  closing := tallies.closing
  writerClosed_eq := tallies.writerClosed_eq
  opened := tallies.opened
  kept := by simp

theorem crash (tallies : Tallies before endpoint station later) {fault : Fault}
    (overflow : Overflow fault) : before.Advances (endpoint.crash fault) station later where
  mirrors := by
    refine ⟨tallies.sent_eq, Or.inl tallies.events_eq, ?_, ?_, ?_, fun other same => ?_⟩
    · simp [Endpoint.crash]
    · simp [Endpoint.crash]
    · simp [Endpoint.crash]
    · obtain rfl := Activity.crashed.inj same
      exact overflow
  bytes_eq := tallies.bytes_eq
  closing := tallies.closing
  writerClosed_eq := tallies.writerClosed_eq
  opened := tallies.opened
  kept := by simp [Endpoint.crash]

/-- A failure is told to the opener or, once it was told about the handshake, to the application. -/
theorem fail (tallies : Tallies before endpoint station later) (failure : Failure) :
    before.Advances (endpoint.fail failure) station later := by
  cases known : endpoint.opened with
  | none =>
      rw [fail_of_untold known]
      refine ⟨⟨tallies.sent_eq, Or.inl tallies.events_eq, by simp, by simp, fun other same => ?_,
        by simp⟩, tallies.bytes_eq, tallies.closing, tallies.writerClosed_eq, ?_, by simp⟩
      · obtain rfl := Except.error.inj (Activity.finished.inj same)
        exact Or.inl rfl
      · intro result told
        simp [tallies.opened result told] at known
  | some result =>
      have last : endpoint.events ++ [StreamEvent.aborted failure] =
          later.heard.map .ofAppEvent ++ [.aborted failure] := by
        rw [tallies.events_eq]
      rw [fail_of_told known]
      refine ⟨⟨tallies.sent_eq, Or.inr ⟨failure, rfl, last⟩, by simp, by simp, fun other same => ?_,
        by simp⟩, tallies.bytes_eq, tallies.closing, tallies.writerClosed_eq, tallies.opened,
        by simp⟩
      obtain rfl := Except.error.inj (Activity.finished.inj same)
      exact Or.inr last

end Tallies

namespace Accords

theorem handOverAll (accords : endpoint.Accords station) :
    ∃ later, Station.Becomes incoming station later ∧ later.taken = station.taken ∧
      later.closing = station.closing ∧
      endpoint.Advances
        ({ endpoint with
            connection := { endpoint.connection with outbox := [] }
            sent := endpoint.sent ++ endpoint.connection.outbox
            }.forwardEvents.notifyOpener.rest) station later := by
  let handed : Endpoint :=
    { endpoint with
      connection := { endpoint.connection with outbox := [] }
      sent := endpoint.sent ++ endpoint.connection.outbox }
  let later : Station :=
    { station with
      connection := { station.connection with outbox := [], events := [] }
      wire := station.wire ++ station.connection.outbox
      heard := station.heard ++ station.connection.events }
  have becomes : Station.Becomes incoming station later :=
    (Station.Becomes.emitAll station (List.append_nil station.connection.outbox).symm).trans
      (.hearAll _)
  refine ⟨later, becomes, rfl, rfl, ?_⟩
  obtain ⟨opened, notify_eq, known⟩ := handed.forwardEvents.notifyOpener_eq
  have connection_eq : handed.forwardEvents.connection = later.connection := by
    simp only [forwardEvents, handed, later, accords.connection_eq]
  have tallies : Tallies endpoint { handed.forwardEvents with opened } station later := by
    refine ⟨?_, ?_, rfl, Or.inl, rfl, known⟩
    · simp only [forwardEvents, handed, later, accords.sent_eq, accords.connection_eq]
    · simp only [forwardEvents, handed, later, accords.events_eq, accords.connection_eq,
        List.map_append]
  change endpoint.Advances handed.forwardEvents.notifyOpener.rest station later
  rw [notify_eq]
  rcases rest_eq { handed.forwardEvents with opened } with
    ⟨rest_eq, past⟩ | ⟨goes, rest_eq | rest_eq⟩
  · rw [rest_eq]
    have past : handed.forwardEvents.connection.phase = .terminated := past
    rw [connection_eq] at past
    exact tallies.finish (accords.concluded past)
  · rw [rest_eq]
    exact tallies.rest accords.running connection_eq rfl rfl (connection_eq ▸ goes)
  · rw [rest_eq]
    exact tallies.crash (Or.inr (Or.inl rfl))

/-- The outbox is handed over and the application is told, unless the carrier fails. -/
theorem handOver (accords : endpoint.Accords station) (incoming : List Bytes)
    (failsAfter : Option Nat) :
    ∃ later, Station.Becomes incoming station later ∧ later.taken = station.taken ∧
      later.closing = station.closing ∧
      endpoint.Advances (endpoint.handOver failsAfter) station later := by
  cases failsAfter with
  | none => exact accords.handOverAll
  | some count =>
      simp only [Endpoint.handOver]
      split
      · have split_eq : station.connection.outbox =
            station.connection.outbox.take count ++ station.connection.outbox.drop count :=
          (List.take_append_drop _ _).symm
        refine ⟨_, .emitAll station split_eq, rfl, rfl, Tallies.fail ?_ _⟩
        refine ⟨?_, accords.events_eq, rfl, Or.inl, rfl, fun _ => id⟩
        simp only [accords.sent_eq, accords.connection_eq]
      · exact accords.handOverAll

/-- A turn is part of the life of an end. -/
theorem turn (accords : endpoint.Accords station) (arises : Station.Arises config isn station)
    (now : Nat) (failsAfter : Option Nat) :
    ∃ later, Station.Becomes incoming station later ∧
      endpoint.Advances (endpoint.turn now failsAfter) station later := by
  obtain ⟨middle, between, segmented, becomes, accords', bytes_eq, closing, writerClosed_eq,
    opened_eq⟩ := accords.segmentPending arises incoming now
  obtain ⟨later, becomes', taken_eq, closing_eq, advances⟩ :=
    accords'.handOver incoming failsAfter
  refine ⟨later, becomes.trans becomes', ?_⟩
  rw [Endpoint.turn, segmented]
  refine ⟨advances.mirrors, advances.bytes_eq.trans bytes_eq, fun closes => ?_,
    advances.writerClosed_eq.trans writerClosed_eq, fun result told => ?_, advances.kept⟩
  · have pending_eq := advances.bytes_eq
    rw [taken_eq, List.append_cancel_left_eq] at pending_eq
    rw [closing_eq] at closes
    rw [pending_eq, advances.writerClosed_eq]
    exact closing closes
  · exact advances.opened result (opened_eq ▸ told)

theorem turn_of_becomes {connection : Connection}
    (accords : Accords { endpoint with connection } { station with connection })
    (becomes : Station.Becomes incoming station { station with connection })
    (arises : Station.Arises config isn station) (now : Nat) (failsAfter : Option Nat) :
    ∃ later, Station.Becomes incoming station later ∧
      endpoint.Advances ({ endpoint with connection }.turn now failsAfter) station later := by
  obtain ⟨later, becomes', advances⟩ := accords.turn (becomes.arises arises) now failsAfter
  exact ⟨later, becomes.trans becomes', advances.mirrors, advances.bytes_eq, advances.closing,
    advances.writerClosed_eq, advances.opened, advances.kept⟩

end Accords

/-- An endpoint that has taken what the application did. -/
def taking (endpoint : Endpoint) : Wakeup → Endpoint
  | .written data => { endpoint with pending := endpoint.pending ++ data }
  | .writerClosed => { endpoint with writerClosed := true }
  | .received _ | .receiveError | .expired => endpoint

theorem Accords.taking (accords : endpoint.Accords station) (wakeup : Wakeup) :
    (endpoint.taking wakeup).Accords station := by
  cases wakeup with
  | written data | writerClosed =>
      exact ⟨accords.running, accords.connection_eq, accords.sent_eq, accords.events_eq,
        accords.concluded⟩
  | received raw | receiveError | expired => exact accords

namespace Mirrors

theorem accords (mirrors : endpoint.Mirrors station) (running : endpoint.activity = .running) :
    endpoint.Accords station := by
  obtain ⟨connection_eq, -, -, goes⟩ := mirrors.resting running
  refine ⟨running, connection_eq, mirrors.sent_eq, ?_, fun past => absurd past goes⟩
  rcases mirrors.told with told | ⟨failure, ended, -⟩
  · exact told
  · simp [running] at ended

theorem accords_of_apply (mirrors : endpoint.Mirrors station)
    (running : endpoint.activity = .running) {operation : Connection.Operation}
    {connection : Connection} {now : Nat}
    (applied : station.connection.apply operation now = .ok connection)
    (arrives : ∀ raw, operation = .receive raw → raw ∈ incoming)
    (idle : station.connection.takenBy operation = []) (stays : operation ≠ .close)
    (concluded : connection.phase = .terminated →
      .peerFinished ∈ station.heard ++ connection.events) :
    Station.Becomes incoming station { station with connection } ∧
      Accords { endpoint with connection } { station with connection } := by
  have becomes := Station.Becomes.of_apply incoming applied arrives
  simp only [idle, List.append_nil, stays, decide_false, Bool.or_false] at becomes
  have accords := mirrors.accords running
  exact ⟨becomes, running, rfl, accords.sent_eq, accords.events_eq, concluded⟩

theorem accords_receive (mirrors : endpoint.Mirrors station)
    (running : endpoint.activity = .running) (arises : Station.Arises config isn station)
    {raw : Bytes} (sent : raw ∈ incoming) {connection : Connection} {now : Nat}
    (received : station.connection.receive raw now = .ok connection) :
    Station.Becomes incoming station { station with connection } ∧
      Accords { endpoint with connection } { station with connection } := by
  obtain ⟨ledger, settled, sound⟩ := arises.sound
  obtain ⟨ledger', settled', sound', -, ended⟩ := (sound.connection.receive raw now).of_ok received
  have applied : station.connection.apply (.receive raw) now = .ok connection := received
  refine mirrors.accords_of_apply running applied ?_ rfl (by simp) fun past => ?_
  · rintro other same
    obtain rfl := Connection.Operation.receive.inj same
    exact sent
  · have goes := (mirrors.resting running).2.2.2
    exact Station.Sound.peerFinished_mem sound' ((ended past).resolve_left goes)

theorem accords_expire (mirrors : endpoint.Mirrors station)
    (running : endpoint.activity = .running) (arises : Station.Arises config isn station)
    (incoming : List Bytes) {connection : Connection} {now : Nat}
    (expired : station.connection.expire now = .ok (.ok (), connection)) :
    Station.Becomes incoming station { station with connection } ∧
      Accords { endpoint with connection } { station with connection } := by
  obtain ⟨ledger, settled, sound⟩ := arises.sound
  obtain ⟨sound', ended⟩ := (sound.connection.expire now).of_ok expired
  have applied : station.connection.apply .expire now = .ok connection := by
    rw [Connection.apply, expired]
    rfl
  refine mirrors.accords_of_apply running applied (by simp) rfl (by simp) fun past => ?_
  have goes := (mirrors.resting running).2.2.2
  exact Station.Sound.peerFinished_mem sound' ((ended rfl past).resolve_left goes)

/-- What follows a wakeup is part of the life of an end, where only segments of the other end
arrive. -/
theorem respond (mirrors : endpoint.Mirrors station) (running : endpoint.activity = .running)
    (arises : Station.Arises config isn station) (wakeup : Wakeup)
    (arrives : ∀ raw, wakeup = .received raw → raw ∈ incoming ∧ raw.length ≤ receiveLimit)
    (now turning : Nat) (failsAfter : Option Nat) :
    ∃ later, Station.Becomes incoming station later ∧
      (endpoint.taking wakeup).Advances (endpoint.respond wakeup now turning failsAfter) station
        later := by
  have accords := mirrors.accords running
  have tallies : Tallies endpoint endpoint station station :=
    ⟨accords.sent_eq, accords.events_eq, rfl, Or.inl, rfl, fun _ => id⟩
  obtain ⟨ledger, settled, sound⟩ := arises.sound
  cases wakeup with
  | written data => exact (accords.taking (.written data)).turn arises turning failsAfter
  | writerClosed => exact (accords.taking .writerClosed).turn arises turning failsAfter
  | receiveError => exact accords.turn arises turning failsAfter
  | received raw =>
      obtain ⟨sent, short⟩ := arrives raw rfl
      have received := sound.connection.receive raw now
      rw [Endpoint.respond, List.take_of_length_le short, accords.connection_eq]
      cases outcome : station.connection.receive raw now with
      | error fault =>
          refine ⟨station, .refl station, tallies.crash ?_⟩
          exact (received.of_error outcome).imp_right fun large => Or.inr large.1
      | ok after =>
          obtain ⟨becomes, accords'⟩ := mirrors.accords_receive running arises sent outcome
          exact accords'.turn_of_becomes becomes arises turning failsAfter
  | expired =>
      have expired := sound.connection.expire now
      rw [Endpoint.respond, accords.connection_eq]
      cases outcome : station.connection.expire now with
      | error fault =>
          refine ⟨station, .refl station, tallies.crash ?_⟩
          exact (expired.of_error outcome).imp And.left fun many => Or.inr many.1
      | ok taken =>
          obtain ⟨result, after⟩ := taken
          cases result with
          | ok _ =>
              obtain ⟨becomes, accords'⟩ := mirrors.accords_expire running arises incoming outcome
              exact accords'.turn_of_becomes becomes arises turning failsAfter
          | error failure =>
              have applied : station.connection.apply .expire now = .ok after := by
                rw [Connection.apply, outcome]
                rfl
              have becomes := Station.Becomes.of_apply incoming applied (by simp)
              simp only [Connection.takenBy, List.append_nil, reduceCtorEq, decide_false,
                Bool.or_false] at becomes
              have tallies' : Tallies endpoint { endpoint with connection := after } station
                  { station with connection := after } :=
                ⟨tallies.sent_eq, tallies.events_eq, rfl, Or.inl, rfl, fun _ => id⟩
              exact ⟨_, becomes, tallies'.fail failure⟩

theorem abandon (mirrors : endpoint.Mirrors station) : endpoint.abandon.Mirrors station := by
  rw [Endpoint.abandon]
  split
  · next running =>
      have told := (mirrors.accords ((isRunning_iff endpoint).mp running)).events_eq
      exact ⟨mirrors.sent_eq, Or.inl told, by simp, by simp, by simp, by simp⟩
  · exact mirrors

end Mirrors

theorem abandon_cases (endpoint : Endpoint) :
    endpoint.abandon = endpoint ∨
      endpoint.activity = .running ∧
        endpoint.abandon = { endpoint with activity := .abandoned } := by
  rw [abandon]
  split
  · next running => exact Or.inr ⟨(isRunning_iff endpoint).mp running, rfl⟩
  · exact Or.inl rfl

end Endpoint
end ReliableTransport
