import ReliableTransport.Proofs.Connection.Reception
import ReliableTransport.Proofs.Network.Basic

/-!
# The life of one end

One end may do everything that a connection offers, at any times, while any bytes arrive.  In
between, its segments are taken from the outbox and its events are heard.  Through all of this its
connection is sound and has written exactly the bytes that were taken for sending.
-/

namespace ReliableTransport

open Fault Script

/-- The bytes that an operation takes for sending. -/
def Connection.takenBy (connection : Connection) : Operation → Bytes
  | .send pending => connection.nextChunk pending
  | .openActive | .listen | .close | .abort | .expire | .receive _ => []

namespace Station

/-- What can happen at an end whose peer may send anything. -/
inductive Occurrence where
  /-- An operation of the connection, be it for the application, the timer or the peer. -/
  | operate (operation : Connection.Operation)
  /-- The oldest segment of the outbox is taken. -/
  | emit
  /-- The oldest event is taken. -/
  | hear
  deriving DecidableEq, Repr

/-- Something happens at one end. -/
def undergo (station : Station) (occurrence : Occurrence) (now : Nat) : Except Fault Station :=
  match occurrence with
  | .operate operation => do
      let connection ← station.connection.apply operation now
      return { station with
        connection
        taken := station.taken ++ station.connection.takenBy operation
        closing := station.closing || operation = .close }
  | .emit => .ok station.emit
  | .hear => .ok station.hear

/-- Things happen in order, each at its own time. -/
def live (station : Station) (history : List (Occurrence × Nat)) : Except Fault Station :=
  history.foldlM (fun station (occurrence, now) => station.undergo occurrence now) station

/-- A state in the life of an end that was created with some parameters. -/
def Arises (config : Config) (isn : SeqNum) (station : Station) : Prop :=
  ∃ connection history, Connection.create config isn = .ok connection ∧
    live { connection } history = .ok station

/-- The connection of an end is sound, and the end wrote what was taken for sending. -/
structure Sound (config : Config) (isn : SeqNum) (station : Station) (ledger : Ledger)
    (settled : Nat) : Prop where
  /-- The connection is sound. -/
  connection : station.connection.Sound ⟨config, isn, station.wire, station.heard⟩ ledger settled
  /-- The end wrote what was taken for sending. -/
  content_eq : content ledger.script = station.taken

theorem live_cons (station : Station) (occurrence : Occurrence) (now : Nat)
    (history : List (Occurrence × Nat)) :
    station.live ((occurrence, now) :: history) =
      (station.undergo occurrence now).bind (·.live history) := rfl

theorem live_append (station : Station) (earlier later : List (Occurrence × Nat)) :
    station.live (earlier ++ later) = (station.live earlier).bind (·.live later) :=
  List.foldlM_append

/-- What everything that happens keeps true stays true through a life. -/
theorem live_induction (holds : Station → Prop)
    (undergo : ∀ {station after : Station} {occurrence : Occurrence} {now : Nat},
      holds station → station.undergo occurrence now = .ok after → holds after)
    {station after : Station} {history : List (Occurrence × Nat)} (start : holds station)
    (done : station.live history = .ok after) : holds after := by
  induction history generalizing station with
  | nil =>
      obtain rfl := Except.ok.inj done
      exact start
  | cons step history ih =>
      obtain ⟨occurrence, now⟩ := step
      rw [live_cons] at done
      obtain ⟨middle, happened, done⟩ := exists_of_bind_eq_ok done
      exact ih (undergo start happened) done

theorem Arises.live {config : Config} {isn : SeqNum} {station after : Station}
    (arises : Arises config isn station) {history : List (Occurrence × Nat)}
    (done : station.live history = .ok after) : Arises config isn after := by
  obtain ⟨connection, earlier, created, lived⟩ := arises
  refine ⟨connection, earlier ++ history, created, ?_⟩
  rw [live_append, lived]
  exact done

namespace Sound

variable {config : Config} {isn : SeqNum} {station : Station} {ledger : Ledger} {settled : Nat}

theorem create {connection : Connection} (created : Connection.create config isn = .ok connection) :
    Sound config isn { connection } ⟨[], [], []⟩ 0 := by
  obtain ⟨window, -, rfl⟩ := Connection.eq_of_create created
  refine ⟨⟨rfl, rfl, ?_, ⟨rfl, rfl⟩, by simp, rfl⟩, rfl⟩
  refine ⟨.nil, List.prefix_refl _, Nat.le_refl _, Nat.le_refl _, by simp, ?_, ?_, ?_, fun _ => rfl,
    rfl, Nat.zero_le _, by simp, by simp⟩
  · exact (SeqNum.advance_zero isn).symm
  · exact (SeqNum.advance_zero isn).symm
  · exact fun _ => ⟨[], rfl, .nil _⟩

theorem emit (sound : Sound config isn station ledger settled) :
    Sound config isn station.emit ledger settled := by
  rw [Station.emit]
  split
  · exact sound
  · next raw outbox outbox_eq =>
      have connection := sound.connection
      refine ⟨{ connection with
        writes := { connection.writes with valid := connection.writes.valid }
        utters := fun raw mem => connection.utters raw ?_ }, sound.content_eq⟩
      rw [outbox_eq]
      simpa using mem

theorem hear (sound : Sound config isn station ledger settled) :
    Sound config isn station.hear ledger settled := by
  rw [Station.hear]
  split
  · exact sound
  · next event events events_eq =>
      have connection := sound.connection
      refine ⟨{ connection with
        writes := { connection.writes with valid := connection.writes.valid }
        told := ?_ }, sound.content_eq⟩
      rw [← connection.told, events_eq]
      simp

theorem of_continues (sound : Sound config isn station ledger settled) {after : Connection}
    {bytes : Bytes}
    (continues : Connection.Continues ledger ⟨config, isn, station.wire, station.heard⟩ bytes after)
    (closing : Bool) :
    ∃ ledger' settled',
      Sound config isn { station with connection := after, taken := station.taken ++ bytes, closing }
        ledger' settled' ∧
      ledger.script <+: ledger'.script := by
  obtain ⟨ledger', settled', connection, grows⟩ := continues
  exact ⟨ledger', settled', ⟨connection, by rw [grows.content_eq, sound.content_eq]⟩, grows.script⟩

/-- Everything that happens keeps an end sound, and is stopped by an overflow at most. -/
theorem undergo (sound : Sound config isn station ledger settled) (occurrence : Occurrence)
    (now : Nat) :
    Ensures (· ∈ [.duration, .count])
      (fun after => ∃ ledger' settled', Sound config isn after ledger' settled' ∧
        ledger.script <+: ledger'.script)
      (station.undergo occurrence now) := by
  have connection := sound.connection
  have of_sound {after : Connection} {settled' : Nat}
      (sound' : after.Sound ⟨config, isn, station.wire, station.heard⟩ ledger settled')
      (closing : Bool) := sound.of_continues sound'.continues closing
  cases occurrence with
  | emit => exact ⟨ledger, settled, sound.emit, List.prefix_refl _⟩
  | hear => exact ⟨ledger, settled, sound.hear, List.prefix_refl _⟩
  | operate operation =>
      rw [Station.undergo]
      cases operation with
      | openActive =>
          obtain ⟨after, asked, continues⟩ := connection.openActive now
          rw [Connection.apply, asked]
          exact sound.of_continues continues _
      | listen => exact of_sound connection.listen _
      | send pending =>
          obtain ⟨after, sent, continues⟩ := connection.sendChunk pending now
          rw [Connection.apply, sent]
          exact sound.of_continues continues _
      | close =>
          obtain ⟨after, closed, continues⟩ := connection.close now
          rw [Connection.apply, closed]
          exact sound.of_continues continues _
      | abort => exact of_sound connection.abort _
      | expire =>
          have expired := connection.expire now
          rw [Connection.apply]
          cases outcome : station.connection.expire now with
          | error fault =>
              rcases expired.of_error outcome with ⟨rfl, -⟩ | ⟨rfl, -⟩
              · exact List.mem_cons_self
              · exact List.mem_cons_of_mem _ List.mem_cons_self
          | ok taken => exact of_sound (expired.of_ok outcome).1 _
      | receive raw =>
          have received := connection.receive raw now
          rw [Connection.apply]
          cases outcome : station.connection.receive raw now with
          | error fault =>
              rcases received.of_error outcome with rfl | ⟨rfl, -⟩
              · exact List.mem_cons_self
              · exact List.mem_cons_of_mem _ List.mem_cons_self
          | ok after =>
              obtain ⟨ledger', settled', sound', grows, -⟩ := received.of_ok outcome
              exact sound.of_continues ⟨ledger', settled', sound', grows⟩ _

/-- An end stays sound through its life, and keeps what it wrote. -/
theorem live (sound : Sound config isn station ledger settled)
    {history : List (Occurrence × Nat)} {after : Station}
    (done : station.live history = .ok after) :
    ∃ ledger' settled', Sound config isn after ledger' settled' ∧
      ledger.script <+: ledger'.script := by
  refine live_induction
    (fun later => ∃ ledger' settled', Sound config isn later ledger' settled' ∧
      ledger.script <+: ledger'.script)
    (fun kept happened => ?_) ⟨ledger, settled, sound, List.prefix_refl _⟩ done
  obtain ⟨ledger₁, settled₁, sound₁, first⟩ := kept
  obtain ⟨ledger₂, settled₂, sound₂, second⟩ := (sound₁.undergo _ _).of_ok happened
  exact ⟨ledger₂, settled₂, sound₂, first.trans second⟩

theorem count_peerFinished (sound : Sound config isn station ledger settled) :
    station.events.count .peerFinished = if .fin ∈ ledger.received then 1 else 0 :=
  sound.connection.told

end Sound

/-- Every state in the life of an end is sound. -/
theorem Arises.sound {config : Config} {isn : SeqNum} {station : Station}
    (arises : Arises config isn station) :
    ∃ ledger settled, Sound config isn station ledger settled := by
  obtain ⟨connection, history, created, lived⟩ := arises
  obtain ⟨ledger, settled, sound, -⟩ := (Sound.create created).live lived
  exact ⟨ledger, settled, sound⟩

end Station
end ReliableTransport
