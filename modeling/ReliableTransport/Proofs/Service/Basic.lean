import ReliableTransport.Proofs.Connection.Transitions
import ReliableTransport.Proofs.Stream

/-!
# Rounds of an endpoint

An endpoint goes through rounds: it takes what ended its wait and makes a turn, for which the
application, the peer and the carrier leave it as much time as they like.  The first round makes its
turn without a wait.  Every round ends in one of few ways, and a log of the rounds tells all that
became of a stream.
-/

namespace ReliableTransport

open Fault

namespace Endpoint

/-- One round of an endpoint. -/
structure Round where
  /-- What ended the wait.  The first round does not wait. -/
  wakeup : Option Wakeup
  /-- When the wakeup is taken. -/
  now : Nat
  /-- When the turn begins. -/
  later : Nat
  /-- How many segments the carrier accepts before it fails, if it does. -/
  failsAfter : Option Nat

/-- Take the wakeup of a round to the connection, which may fail by it. -/
def Round.operate (round : Round) (connection : Connection) :
    Except Fault (Except Failure Unit × Connection) :=
  match round.wakeup with
  | some (.received raw) => do
      return (.ok (), ← connection.receive (raw.take receiveLimit) round.now)
  | some .expired => connection.expire round.now
  | none | some (.written _) | some .writerClosed | some .receiveError => .ok (.ok (), connection)

/-- Take the wakeup of a round. -/
def heed (endpoint : Endpoint) (round : Round) : Except Fault (Except Failure Unit × Endpoint) := do
  let (result, connection) ← round.operate endpoint.connection
  return (result, { round.wakeup.elim endpoint endpoint.taking with connection })

/-- The connection takes a segment, notices an expired deadline or goes unnoticed. -/
theorem Round.operate_cases {round : Round} {connection after : Connection}
    {result : Except Failure Unit} (operated : round.operate connection = .ok (result, after)) :
    result = .ok () ∧ after = connection ∨
      (result = .ok () ∧ ∃ raw, round.wakeup = some (.received raw) ∧
        connection.receive (raw.take receiveLimit) round.now = .ok after) ∨
      round.wakeup = some .expired ∧ connection.expire round.now = .ok (result, after) := by
  rw [operate] at operated
  split at operated
  · next raw woken =>
      obtain ⟨received, taken, operated⟩ := exists_of_bind_eq_ok operated
      obtain ⟨rfl, rfl⟩ := Prod.mk.inj (Except.ok.inj operated)
      exact Or.inr (Or.inl ⟨rfl, raw, woken, taken⟩)
  · next woken => exact Or.inr (Or.inr ⟨woken, operated⟩)
  all_goals
    obtain ⟨rfl, rfl⟩ := Prod.mk.inj (Except.ok.inj operated)
    exact Or.inl ⟨rfl, rfl⟩

/-- Taking a wakeup concerns the connection and the own direction. -/
theorem heed_cases {endpoint awake : Endpoint} {round : Round} {result : Except Failure Unit}
    (heeded : endpoint.heed round = .ok (result, awake)) :
    ∃ connection, round.operate endpoint.connection = .ok (result, connection) ∧
      awake =
        { endpoint with
          connection
          pending := (round.wakeup.elim endpoint endpoint.taking).pending
          writerClosed := (round.wakeup.elim endpoint endpoint.taking).writerClosed } := by
  obtain ⟨⟨result, connection⟩, operated, heeded⟩ := exists_of_bind_eq_ok heeded
  obtain ⟨rfl, rfl⟩ := Prod.mk.inj (Except.ok.inj heeded)
  refine ⟨connection, operated, ?_⟩
  cases round.wakeup with
  | none => rfl
  | some wakeup => cases wakeup <;> rfl

/-- Make a round. -/
def serve (endpoint : Endpoint) (round : Round) : Endpoint :=
  match endpoint.heed round with
  | .ok (.ok (), awake) => awake.turn round.later round.failsAfter
  | .ok (.error failure, failed) => failed.fail failure
  | .error fault => endpoint.crash fault

theorem start_eq_serve (connection : Connection) (now later : Nat) (failsAfter : Option Nat) :
    start connection later failsAfter =
      ({ connection } : Endpoint).serve ⟨none, now, later, failsAfter⟩ := rfl

theorem respond_eq_serve (endpoint : Endpoint) (wakeup : Wakeup) (now later : Nat)
    (failsAfter : Option Nat) :
    endpoint.respond wakeup now later failsAfter =
      endpoint.serve ⟨some wakeup, now, later, failsAfter⟩ := by
  cases wakeup with
  | written data | writerClosed | receiveError => rfl
  | received raw =>
      simp only [respond, serve, heed, Round.operate]
      cases endpoint.connection.receive (raw.take receiveLimit) now <;> rfl
  | expired =>
      simp only [respond, serve, heed, Round.operate]
      rcases endpoint.connection.expire now with fault | ⟨failure | _, connection⟩ <;> rfl

/-- Everything that is due was sent and told, and the opener knows whether the handshake is
complete. -/
def handed (endpoint : Endpoint) : Endpoint :=
  { endpoint with
    connection := { endpoint.connection with outbox := [] }
    sent := endpoint.sent ++ endpoint.connection.outbox }.forwardEvents.notifyOpener

/-- Of what is due, the carrier accepted some segments. -/
def cut (endpoint : Endpoint) (count : Nat) : Endpoint :=
  { endpoint with
    connection := { endpoint.connection with outbox := [] }
    sent := endpoint.sent ++ endpoint.connection.outbox.take count }

/-- How a round ends. -/
inductive Ends (endpoint : Endpoint) (round : Round) : Endpoint → Prop
  /-- The connection fails by the wakeup. -/
  | expires {failure : Failure} {failed : Endpoint} :
      endpoint.heed round = .ok (.error failure, failed) →
      Ends endpoint round (failed.fail failure)
  /-- The carrier fails. -/
  | fails {awake middle : Endpoint} {count : Nat} :
      endpoint.heed round = .ok (.ok (), awake) →
      awake.segmentPending round.later = .ok middle → round.failsAfter = some count →
      count < middle.connection.outbox.length →
      Ends endpoint round ((middle.cut count).fail middle.carrierFailure)
  /-- The connection is over. -/
  | finishes {awake middle : Endpoint} :
      endpoint.heed round = .ok (.ok (), awake) →
      awake.segmentPending round.later = .ok middle → middle.connection.phase = .terminated →
      Ends endpoint round { middle.handed with activity := .finished (.ok ()) }
  /-- The endpoint waits. -/
  | waits {awake middle : Endpoint} :
      endpoint.heed round = .ok (.ok (), awake) →
      awake.segmentPending round.later = .ok middle → middle.connection.phase ≠ .terminated →
      Ends endpoint round middle.handed
  /-- A fault stops the endpoint. -/
  | crashes {fault : Fault} {stopped : Endpoint} : stopped.activity = .crashed fault →
      Ends endpoint round stopped

theorem opened_notifyOpener (endpoint : Endpoint) :
    endpoint.notifyOpener.opened =
      if endpoint.opened.isSome then endpoint.opened
      else if endpoint.connection.phase.isSynchronized then some (.ok ())
      else if endpoint.connection.isTerminated then some (.error .refused)
      else endpoint.opened := by
  rw [notifyOpener]
  split
  · rfl
  split
  · rfl
  split <;> rfl

theorem handed_eq (endpoint : Endpoint) :
    endpoint.handed =
      { endpoint with
        connection := { endpoint.connection with outbox := [], events := [] }
        sent := endpoint.sent ++ endpoint.connection.outbox
        events := endpoint.events ++ endpoint.connection.events.map .ofAppEvent
        opened := endpoint.notifyOpener.opened } := by
  obtain ⟨opened, notify_eq, -⟩ := Endpoint.notifyOpener_eq
    { endpoint with
      connection := { endpoint.connection with outbox := [] }
      sent := endpoint.sent ++ endpoint.connection.outbox }.forwardEvents
  have opened_eq : opened = endpoint.notifyOpener.opened := by
    rw [opened_notifyOpener, ← show _ = opened from congrArg Endpoint.opened notify_eq,
      opened_notifyOpener]
    rfl
  rw [handed, notify_eq, opened_eq]
  rfl

/-- Every round ends in one of these ways. -/
theorem ends_serve (endpoint : Endpoint) (round : Round) :
    endpoint.Ends round (endpoint.serve round) := by
  have rests {awake middle : Endpoint} (heeded : endpoint.heed round = .ok (.ok (), awake))
      (segmented : awake.segmentPending round.later = .ok middle) :
      endpoint.Ends round middle.handed.rest := by
    have phase_eq : middle.handed.connection.phase = middle.connection.phase := by
      rw [handed_eq]
    rcases rest_eq middle.handed with ⟨rest_eq, past⟩ | ⟨goes, rest_eq | rest_eq⟩
    · rw [rest_eq]
      exact .finishes heeded segmented (phase_eq ▸ past)
    · rw [rest_eq]
      exact .waits heeded segmented (phase_eq ▸ goes)
    · rw [rest_eq]
      exact .crashes rfl
  rw [serve]
  split
  · next awake heeded =>
      rw [turn]
      split
      · next middle segmented =>
          simp only [handOver]
          split
          · next count fails =>
              split
              · next short => exact .fails heeded segmented fails short
              · exact rests heeded segmented
          · exact rests heeded segmented
      · exact .crashes rfl
  · next failure failed heeded => exact .expires heeded
  · exact .crashes rfl

end Endpoint

namespace Stream

/-- The writes that are left when the endpoint takes a wakeup, provided that the channel of writes
has it if it comes from there. -/
def left? (stream : Stream) (wakeup : Wakeup) : Option (List Bytes) :=
  match wakeup with
  | .written _ | .writerClosed =>
      if stream.nextWrite? = some wakeup then some stream.writes.tail else none
  | .received _ | .receiveError | .expired => some stream.writes

theorem writes_eq_of_left {stream : Stream} {data : Bytes} {writes : List Bytes}
    (left : stream.left? (.written data) = some writes) : stream.writes = data :: writes := by
  rw [left?] at left
  split at left
  · next next =>
      rw [nextWrite?] at next
      split at next
      · next writes_eq =>
          obtain rfl := Wakeup.written.inj (Option.some.inj next)
          rw [writes_eq, ← Option.some.inj left, writes_eq, List.tail_cons]
      · split at next <;> cases next
  · cases left

theorem unwritable_of_left {stream : Stream} {writes : List Bytes}
    (left : stream.left? .writerClosed = some writes) :
    stream.writable = false ∧ stream.writes = [] ∧ writes = [] := by
  rw [left?] at left
  split at left
  · next next =>
      rw [nextWrite?] at next
      split at next
      · cases next
      · next writes_eq =>
          split at next
          · cases next
          · next unwritable =>
              rw [← Option.some.inj left, writes_eq]
              exact ⟨by simpa using unwritable, rfl, rfl⟩
  · cases left

/-- A stream over a connection whose application wrote some messages, after rounds of its endpoint,
oldest first and each with the endpoint as it was before. -/
inductive Served (connection : Connection) :
    List Bytes → List (Endpoint × Endpoint.Round) → Stream → Prop
  /-- The endpoint made its first round. -/
  | start (now later : Nat) (failsAfter : Option Nat) :
      Served connection [] [({ connection }, ⟨none, now, later, failsAfter⟩)]
        { endpoint := ({ connection } : Endpoint).serve ⟨none, now, later, failsAfter⟩ }
  /-- The application writes a message. -/
  | write {accepted : List Bytes} {log : List (Endpoint × Endpoint.Round)} {stream : Stream}
      (data : Bytes) : Served connection accepted log stream →
      (stream.write data).1 = .accepted →
      Served connection (accepted ++ [data]) log (stream.write data).2
  /-- The application finishes writing. -/
  | close {accepted : List Bytes} {log : List (Endpoint × Endpoint.Round)} {stream : Stream} :
      Served connection accepted log stream → Served connection accepted log stream.close
  /-- The endpoint makes a round after a wait. -/
  | round {accepted writes : List Bytes} {log : List (Endpoint × Endpoint.Round)} {stream : Stream}
      (wakeup : Wakeup) (now later : Nat) (failsAfter : Option Nat) :
      Served connection accepted log stream → stream.endpoint.awaits wakeup now = true →
      stream.left? wakeup = some writes →
      Served connection accepted (log ++ [(stream.endpoint, ⟨some wakeup, now, later, failsAfter⟩)])
        { stream with
          endpoint := stream.endpoint.serve ⟨some wakeup, now, later, failsAfter⟩
          writes }

namespace Served

variable {connection : Connection} {accepted : List Bytes}
  {log : List (Endpoint × Endpoint.Round)} {stream : Stream}

theorem takeWrite (served : Served connection accepted log stream) (now later : Nat)
    (failsAfter : Option Nat) :
    ∃ log, Served connection accepted log (stream.takeWrite now later failsAfter) := by
  rw [Stream.takeWrite]
  split
  · exact ⟨log, served⟩
  next wakeup next =>
    split
    · next awaits =>
        have left : stream.left? wakeup = some stream.writes.tail := by
          have channel := next
          rw [nextWrite?] at channel
          split at channel
          · obtain rfl := Option.some.inj channel
            rw [left?, if_pos next]
          · split at channel
            · cases channel
            · obtain rfl := Option.some.inj channel
              rw [left?, if_pos next]
        refine ⟨log ++ [(stream.endpoint, ⟨some wakeup, now, later, failsAfter⟩)], ?_⟩
        rw [Endpoint.wake, if_pos awaits, Endpoint.respond_eq_serve]
        exact served.round wakeup now later failsAfter awaits left
    · exact ⟨log, served⟩

theorem wake (served : Served connection accepted log stream) {wakeup : Wakeup}
    (left : stream.left? wakeup = some stream.writes) (now later : Nat)
    (failsAfter : Option Nat) :
    ∃ log, Served connection accepted log (stream.wake wakeup now later failsAfter) := by
  rw [Stream.wake, Endpoint.wake]
  split
  · next awaits =>
      refine ⟨log ++ [(stream.endpoint, ⟨some wakeup, now, later, failsAfter⟩)], ?_⟩
      rw [Endpoint.respond_eq_serve]
      exact served.round wakeup now later failsAfter awaits left
  · exact ⟨log, served⟩

/-- The log is that of one endpoint: each round but the last left it waiting, and the last one made
it what it is. -/
theorem linked (served : Served connection accepted log stream) :
    ∃ earlier endpoint round, log = earlier ++ [(endpoint, round)] ∧
      stream.endpoint = endpoint.serve round ∧
      ∀ entry ∈ earlier, (entry.1.serve entry.2).activity = .running := by
  induction served with
  | start now later failsAfter => exact ⟨[], _, _, rfl, rfl, by simp⟩
  | @write _ _ stream data _ _ ih =>
      obtain ⟨writes, write_eq⟩ := stream.write_eq data
      rw [write_eq]
      exact ih
  | close _ ih => exact ih
  | @round _ _ log stream wakeup now later failsAfter _ awaits _ ih =>
      obtain ⟨earlier, endpoint, round, rfl, endpoint_eq, waited⟩ := ih
      refine ⟨earlier ++ [(endpoint, round)], _, _, rfl, rfl, fun entry mem => ?_⟩
      rcases List.mem_append.mp mem with mem | mem
      · exact waited entry mem
      · obtain rfl := List.mem_singleton.mp mem
        rw [← endpoint_eq]
        exact Endpoint.running_of_awaits awaits

theorem of_start {role : Role} {config : Config} {isn : SeqNum} {now later : Nat}
    {failsAfter : Option Nat} {stream : Stream}
    (started : Stream.start role config isn now later failsAfter = .ok stream) :
    ∃ connection log, initiate role config isn now = .ok connection ∧
      Served connection [] log stream := by
  obtain ⟨connection, initiated, rfl⟩ := start_cases started
  rw [Endpoint.start_eq_serve]
  exact ⟨connection, _, initiated, .start now later failsAfter⟩

end Served
end Stream

namespace Connection

variable {connection after : Connection} {now : Nat}

theorem flushWithin_frame {rounds : Nat} {pending rest : Bytes} {chunks : List Bytes}
    (flushed : connection.flushWithin rounds pending now = .ok (chunks, rest, after)) :
    ∃ flight sendNext outbox, after = { connection with flight, sendNext, outbox } := by
  induction rounds generalizing connection pending chunks rest with
  | zero =>
      obtain ⟨-, same⟩ := Prod.mk.inj (Except.ok.inj flushed)
      obtain ⟨-, rfl⟩ := Prod.mk.inj same
      exact ⟨_, _, _, rfl⟩
  | succ rounds ih =>
      rcases flushWithin_cases flushed with ⟨-, -, rfl⟩ | ⟨-, middle, later, sent, again⟩
      · exact ⟨_, _, _, rfl⟩
      · obtain ⟨flight, sendNext, outbox, middle_eq⟩ := sendChunk_cases sent
        obtain ⟨flight', sendNext', outbox', last_eq⟩ := ih again
        rw [middle_eq] at last_eq
        exact ⟨_, _, _, last_eq⟩

end Connection

namespace Endpoint

variable {endpoint after : Endpoint} {now : Nat}

theorem segmentPending_of_not_canSend (cannot : endpoint.connection.canSend = false) (now : Nat) :
    endpoint.segmentPending now = .ok endpoint := by
  rw [segmentPending, Connection.flush, Connection.flushWithin_of_not_canSend cannot]
  simp only [bind, Except.bind, cannot, Bool.and_false, Bool.false_eq_true, if_false]
  rfl

/-- Putting pending data into segments tells nothing.  It moves the phase only by finishing the own
direction of a connection that is open. -/
theorem segmentPending_cases (segmented : endpoint.segmentPending now = .ok after) :
    ∃ pending connection, after = { endpoint with pending, connection } ∧
      connection.events = endpoint.connection.events ∧
      (connection.phase = endpoint.connection.phase ∨
        endpoint.connection.phase.isSynchronized = true ∧
          connection.phase.isSynchronized = true) := by
  obtain ⟨⟨chunks, pending, flushed⟩, sent, segmented⟩ := exists_of_bind_eq_ok segmented
  obtain ⟨flight, sendNext, outbox, flushed_eq⟩ := Connection.flushWithin_frame sent
  simp only at segmented
  split at segmented
  · next finishes =>
      simp only [Bool.and_eq_true] at finishes
      obtain ⟨connection, closed, segmented⟩ := exists_of_bind_eq_ok segmented
      obtain rfl := Except.ok.inj segmented
      have sending := Connection.isSending_of_canSend finishes.2
      refine ⟨pending, connection, rfl, ?_, Or.inr ⟨?_, ?_⟩⟩
      · rw [(Connection.close_rests closed).events_eq, flushed_eq]
      · have synchronized := Phase.synchronized_of_sending sending
        rwa [flushed_eq] at synchronized
      · rcases Connection.close_phase closed with same | moved
        · rw [same]
          exact Phase.synchronized_of_sending sending
        · cases phase_eq : flushed.phase <;>
            simp_all [Phase.isSending, Phase.onClose, Phase.isSynchronized]
  · obtain rfl := Except.ok.inj segmented
    exact ⟨pending, flushed, rfl, by rw [flushed_eq], Or.inl (by rw [flushed_eq])⟩

end Endpoint
end ReliableTransport
