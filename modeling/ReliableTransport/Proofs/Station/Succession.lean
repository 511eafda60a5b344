import ReliableTransport.Proofs.Connection.Recovery
import ReliableTransport.Proofs.Connection.Transitions
import ReliableTransport.Proofs.Station.Attention

/-!
# The succession of phases

A connection goes through its phases in one direction.  What an operation leads to is later than what
it leaves, so that no phase is entered twice.  A connection that is over has nothing outstanding, and
an operation changes at most whether it would welcome a peer.
-/

namespace ReliableTransport

open Fault

/-- How late a phase is in the life of a connection. -/
def Phase.rank : Phase → Nat
  | closed => 0
  | synSent | synReceived => 1
  | established => 2
  | finWait1 | closeWait => 3
  | finWait2 | lastAck | closing => 4
  | terminated => 5

namespace Connection

theorem Operation.rank_lt_of_leads (operation : Operation) {phase next : Phase}
    (moved : next ∈ operation.leads phase) : next = phase ∨ phase.rank < next.rank := by
  cases operation <;> cases phase <;> cases next <;>
    simp_all [leads, Phase.onSegment, Phase.onClose, Phase.rank]

theorem apply_of_terminated {connection : Connection} (past : connection.phase = .terminated)
    (cleared : connection.flight.segments = []) (operation : Operation) (now : Nat) :
    ∃ listening, connection.apply operation now = .ok { connection with listening } := by
  cases operation with
  | openActive =>
      refine ⟨connection.listening, ?_⟩
      rw [apply, openActive, if_neg (by simp [past])]
      rfl
  | listen => exact ⟨true, rfl⟩
  | send pending =>
      have cannot : connection.canSend = false := by simp [canSend, past, Phase.isSending]
      refine ⟨connection.listening, ?_⟩
      rw [apply, sendChunk_of_nil (nextChunk_of_not_canSend cannot pending)]
      rfl
  | close =>
      refine ⟨connection.listening, ?_⟩
      change connection.close now = .ok connection
      rw [close, past]
  | abort =>
      have flight_eq : Flight.empty = connection.flight := by
        rw [Flight.empty, ← cleared]
      refine ⟨connection.listening, ?_⟩
      rw [apply, abort, flight_eq, ← past]
  | expire =>
      refine ⟨connection.listening, ?_⟩
      rw [apply, expire, if_pos (by simp [Flight.isEmpty, cleared])]
      rfl
  | receive raw => exact ⟨connection.listening, receive_of_terminated past raw now⟩

end Connection

namespace Station

variable {config : Config} {isn : SeqNum} {station middle after : Station} {now : Nat}

theorem undergo_phase {occurrence : Occurrence} (done : station.undergo occurrence now = .ok after) :
    after.connection.phase = station.connection.phase ∨
      ∃ operation, occurrence = .operate operation ∧
        after.connection.phase ∈ operation.leads station.connection.phase := by
  cases occurrence with
  | emit =>
      obtain rfl := Except.ok.inj done
      exact Or.inl (by rw [connection_emit])
  | hear =>
      obtain rfl := Except.ok.inj done
      exact Or.inl (by rw [connection_hear])
  | operate operation =>
      obtain ⟨connection, applied, rfl⟩ := exists_of_undergo_operate done
      exact (Connection.apply_phase applied).imp_right fun moved => ⟨operation, rfl, moved⟩

/-- Through its life an end stays in a phase or leaves it for a later one. -/
theorem rank_lt_of_live {history : List (Occurrence × Nat)}
    (done : station.live history = .ok after) :
    after.connection.phase = station.connection.phase ∨
      station.connection.phase.rank < after.connection.phase.rank := by
  refine live_induction
    (fun later => later.connection.phase = station.connection.phase ∨
      station.connection.phase.rank < later.connection.phase.rank)
    (fun {middle later occurrence now} kept happened => ?_) (Or.inl rfl) done
  have moved : later.connection.phase = middle.connection.phase ∨
      middle.connection.phase.rank < later.connection.phase.rank := by
    rcases undergo_phase happened with same | ⟨operation, -, moved⟩
    · exact Or.inl same
    · exact operation.rank_lt_of_leads moved
  rcases kept with same | risen
  · rwa [same] at moved
  · rcases moved with still | further
    · exact Or.inr (still ▸ risen)
    · exact Or.inr (Nat.lt_trans risen further)

/-- Nothing happened to an end but that what was queued before is taken, or that it would welcome a
peer. -/
structure Idles (station after : Station) : Prop where
  /-- The connection has its old state. -/
  connection_eq : ∃ listening outbox events,
    after.connection = { station.connection with listening, outbox, events }
  /-- Nothing more was sent. -/
  sent_eq : after.sent = station.sent
  /-- Nothing more was told. -/
  events_eq : after.events = station.events

/-- An end that is over takes part in everything without a change. -/
theorem Idles.undergo (idles : station.Idles middle)
    (past : station.connection.phase = .terminated)
    (cleared : station.connection.flight.segments = []) (occurrence : Occurrence) (now : Nat) :
    ∃ after, middle.undergo occurrence now = .ok after ∧ station.Idles after := by
  obtain ⟨⟨listening, outbox, events, connection_eq⟩, sent_eq, events_eq⟩ := idles
  cases occurrence with
  | emit =>
      refine ⟨middle.emit, rfl, ⟨listening, outbox.tail, events, ?_⟩,
        middle.sent_emit.trans sent_eq, middle.events_emit.trans events_eq⟩
      rw [connection_emit, connection_eq]
  | hear =>
      refine ⟨middle.hear, rfl, ⟨listening, outbox, events.tail, ?_⟩,
        middle.sent_hear.trans sent_eq, middle.events_hear.trans events_eq⟩
      rw [connection_hear, connection_eq]
  | operate operation =>
      have past : middle.connection.phase = .terminated := by rw [connection_eq, past]
      have cleared : middle.connection.flight.segments = [] := by rw [connection_eq, cleared]
      obtain ⟨welcome, applied⟩ := Connection.apply_of_terminated past cleared operation now
      rw [Station.undergo, applied]
      refine ⟨_, rfl, ⟨welcome, outbox, events, by rw [connection_eq]⟩, ?_, ?_⟩
      · exact sent_eq
      · exact events_eq

theorem exists_idles (past : station.connection.phase = .terminated)
    (cleared : station.connection.flight.segments = []) (history : List (Occurrence × Nat)) :
    ∃ after, station.live history = .ok after ∧ station.Idles after := by
  have goes_on : ∀ middle, station.Idles middle →
      ∃ after, middle.live history = .ok after ∧ station.Idles after := by
    induction history with
    | nil => exact fun middle idles => ⟨middle, rfl, idles⟩
    | cons step history ih =>
        intro middle idles
        obtain ⟨occurrence, now⟩ := step
        obtain ⟨next, happened, idles⟩ := idles.undergo past cleared occurrence now
        obtain ⟨after, lived, idles⟩ := ih next idles
        exact ⟨after, by rw [live_cons, happened]; exact lived, idles⟩
  exact goes_on station ⟨⟨_, _, _, rfl⟩, rfl, rfl⟩

/-- An operation leaves the phase of a connection or leads to one of few others, and a phase that
was left is never entered again.  Nothing happens to a connection that is over. -/
theorem Arises.phases_succeed (arises : Arises config isn station) :
    (∀ operation now connection, station.connection.apply operation now = .ok connection →
      connection.phase = station.connection.phase ∨
        connection.phase ∈ operation.leads station.connection.phase) ∧
    (∀ history middle later after, station.live history = .ok middle →
      middle.connection.phase ≠ station.connection.phase → middle.live later = .ok after →
      after.connection.phase ≠ station.connection.phase) ∧
    (station.connection.phase = .terminated →
      station.connection.flight.segments = [] ∧
      (∀ operation now, ∃ listening,
        station.connection.apply operation now = .ok { station.connection with listening }) ∧
      ∀ history, ∃ after, station.live history = .ok after ∧ station.Idles after) := by
  refine ⟨fun operation now connection applied => Connection.apply_phase applied, ?_, fun past => ?_⟩
  · intro history middle later after lived left went back
    have risen := (rank_lt_of_live lived).resolve_left left
    rcases rank_lt_of_live went with same | further
    · exact left (same.symm.trans back)
    · rw [back] at further
      exact Nat.lt_asymm risen further
  · obtain ⟨ledger, settled, sound⟩ := arises.sound
    have cleared := sound.connection.writes.cleared past
    exact ⟨cleared, Connection.apply_of_terminated past cleared, exists_idles past cleared⟩

/-- An end whose FIN is acknowledged by the FIN of its peer is over, and stays so when the FIN
arrives once more and the deadline expires. -/
theorem phases_succeed_farewell :
    ∃ station middle after : Station, Arises Network.narrow ⟨7⟩ station ∧
      station.connection.phase = .finWait1 ∧ Arises Network.narrow ⟨7⟩ middle ∧
      middle.connection.phase = .terminated ∧
      middle.live [(.operate (.receive (Cargo.fin.encode ⟨5⟩ ⟨9⟩ 4)), 4),
        (.operate .expire, 5)] = .ok after ∧
      after.connection.phase ≠ .finWait1 ∧ middle.Idles after := by
  let history : List (Occurrence × Nat) :=
    [(.operate .listen, 0), (.operate (.receive ((Cargo.syn false).encode ⟨4⟩ ⟨0⟩ 4)), 1),
      (.operate .close, 2)]
  have begun : ∃ station middle : Station, Arises Network.narrow ⟨7⟩ station ∧
      station.connection.phase = .finWait1 ∧
      station.live [(.operate (.receive (Cargo.fin.encode ⟨5⟩ ⟨9⟩ 4)), 3)] = .ok middle ∧
      middle.connection.phase = .terminated :=
    ⟨_, _, ⟨_, history, rfl, rfl⟩, rfl, rfl, rfl⟩
  obtain ⟨station, middle, arises, waiting, lived, past⟩ := begun
  obtain ⟨-, -, ended⟩ := (arises.live lived).phases_succeed
  obtain ⟨-, -, stays⟩ := ended past
  obtain ⟨after, went, idles⟩ := stays [(.operate (.receive (Cargo.fin.encode ⟨5⟩ ⟨9⟩ 4)), 4),
    (.operate .expire, 5)]
  obtain ⟨-, never, -⟩ := arises.phases_succeed
  refine ⟨station, middle, after, arises, waiting, arises.live lived, past, went, ?_, idles⟩
  rw [← waiting]
  exact never _ middle _ after lived (by rw [waiting, past]; decide) went

end Station
end ReliableTransport
