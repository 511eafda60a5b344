import Mathlib.Logic.Function.Basic
import ReliableTransport.Connection.Receive
import ReliableTransport.Proofs.Fault
import ReliableTransport.Side

/-!
# Two connections and an unreliable network

The network keeps every segment that it ever took from an outbox and may deliver any of them any
number of times, in any order, or never.  Beside the connections, the state remembers what the
applications did and heard.
-/

namespace ReliableTransport

theorem Side.eq_or_eq_other (side actor : Side) : side = actor ∨ side = actor.other := by
  cases side <;> cases actor <;> simp [other]

/-- The bytes of the stream that an event tells of. -/
def AppEvent.bytes : AppEvent → Bytes
  | data bytes => bytes
  | peerFinished => []

/-- A connection, what the network took from it and what its application did. -/
structure Station where
  /-- The connection. -/
  connection : Connection
  /-- Segments that the network took from the outbox, oldest first. -/
  wire : List Bytes := []
  /-- Events that the application took, oldest first. -/
  heard : List AppEvent := []
  /-- All bytes that were taken for sending. -/
  taken : Bytes := []
  /-- The application asked to finish its direction. -/
  closing : Bool := false

/-- What can happen at one end. -/
inductive Move where
  /-- At most one segment of pending bytes is sent. -/
  | send (pending : Bytes)
  /-- The application finishes its direction. -/
  | close
  /-- The application gives up. -/
  | abort
  /-- The retransmission timer expires. -/
  | expire
  /-- The numbered segment of the other end arrives. -/
  | deliver (number : Nat)
  /-- The network takes the oldest segment of the outbox. -/
  | emit
  /-- The application takes the oldest event. -/
  | hear
  deriving DecidableEq, Repr

namespace Station

/-- All segments that were ever sent, oldest first. -/
def sent (station : Station) : List Bytes :=
  station.wire ++ station.connection.outbox

/-- All events that there ever were for the application, oldest first. -/
def events (station : Station) : List AppEvent :=
  station.heard ++ station.connection.events

/-- All bytes of the peer's stream that there ever were for the application. -/
def received (station : Station) : Bytes :=
  station.events.flatMap AppEvent.bytes

/-- The network takes the oldest segment of the outbox, if there is one. -/
def emit (station : Station) : Station :=
  match station.connection.outbox with
  | [] => station
  | raw :: outbox =>
      { station with
        connection := { station.connection with outbox }
        wire := station.wire ++ [raw] }

/-- The application takes the oldest event, if there is one. -/
def hear (station : Station) : Station :=
  match station.connection.events with
  | [] => station
  | event :: events =>
      { station with
        connection := { station.connection with events }
        heard := station.heard ++ [event] }

theorem connection_emit (station : Station) :
    station.emit.connection =
      { station.connection with outbox := station.connection.outbox.tail } := by
  rw [emit]
  split
  · next outbox_eq => rw [outbox_eq, List.tail_nil, ← outbox_eq]
  · next raw outbox outbox_eq => rw [outbox_eq, List.tail_cons]

theorem connection_hear (station : Station) :
    station.hear.connection =
      { station.connection with events := station.connection.events.tail } := by
  rw [hear]
  split
  · next events_eq => rw [events_eq, List.tail_nil, ← events_eq]
  · next event events events_eq => rw [events_eq, List.tail_cons]

/-- Something happens at one end, where the other end sent some segments. -/
def act (station : Station) (incoming : List Bytes) (move : Move) (now : Nat) :
    Except Fault Station :=
  match move with
  | .send pending => do
      let (chunk, connection) ← station.connection.sendChunk pending now
      return { station with connection, taken := station.taken ++ chunk }
  | .close => do
      let connection ← station.connection.close now
      return { station with connection, closing := true }
  | .abort => .ok { station with connection := station.connection.abort }
  | .expire => do
      let (_, connection) ← station.connection.expire now
      return { station with connection }
  | .deliver number =>
      match incoming[number]? with
      | none => .ok station
      | some raw => do
          let connection ← station.connection.receive raw now
          return { station with connection }
  | .emit => .ok station.emit
  | .hear => .ok station.hear

end Station

/-- Two ends and a clock. -/
structure Network where
  /-- The ends. -/
  station : Side → Station
  /-- The current time. -/
  now : Nat

namespace Network

/-- One step of a network. -/
inductive Step where
  /-- Time goes by. -/
  | elapse (time : Nat)
  /-- Something happens at one end. -/
  | act (side : Side) (move : Move)
  deriving DecidableEq, Repr

/-- Replace one of the ends. -/
def setStation (network : Network) (side : Side) (station : Station) : Network :=
  { network with station := Function.update network.station side station }

/-- Take one step. -/
def step (network : Network) : Step → Except Fault Network
  | .elapse time => .ok { network with now := network.now + time }
  | .act side move => do
      let station ←
        (network.station side).act (network.station side.other).wire move network.now
      return network.setStation side station

/-- Take steps in order. -/
def run (network : Network) (steps : List Step) : Except Fault Network :=
  steps.foldlM step network

/-- Two ends with nothing on the wire. -/
def fresh (first second : Connection) (now : Nat) : Network where
  station := fun side =>
    match side with
    | .first => { connection := first }
    | .second => { connection := second }
  now

/-- The first end asks for a connection and the second one listens. -/
def start (opener listener : Config) (openerIsn listenerIsn : SeqNum) (now : Nat) :
    Except Fault Network := do
  let opener ← Connection.create opener openerIsn
  let opener ← opener.openActive now
  let listener ← Connection.create listener listenerIsn
  return fresh opener listener.listen now

/-- Take steps from a start. -/
def play (opener listener : Config) (openerIsn listenerIsn : SeqNum) (now : Nat)
    (steps : List Step) : Except Fault Network := do
  let network ← start opener listener openerIsn listenerIsn now
  network.run steps

/-- A state after some steps from a start with valid configurations. -/
def Reachable (network : Network) : Prop :=
  ∃ opener listener openerIsn listenerIsn now steps,
    opener.Valid ∧ listener.Valid ∧
      play opener listener openerIsn listenerIsn now steps = .ok network

/-- Neither end has sent so much that positions of its stream could be confused. -/
def Short (network : Network) : Prop :=
  ∀ side, (network.station side).taken.length < 2147483644

@[simp]
theorem station_setStation (network : Network) (side : Side) (station : Station) :
    (network.setStation side station).station side = station := by
  simp [setStation]

@[simp]
theorem station_setStation_other (network : Network) (side : Side) (station : Station) :
    (network.setStation side station).station side.other = network.station side.other := by
  simp [setStation, side.other_ne]

theorem run_cons (network : Network) (step : Step) (steps : List Step) :
    network.run (step :: steps) = (network.step step).bind (·.run steps) := rfl

/-- A step at one end replaces this end. -/
theorem exists_of_step_act {network after : Network} {side : Side} {move : Move}
    (done : network.step (.act side move) = .ok after) :
    ∃ station,
      (network.station side).act (network.station side.other).wire move network.now = .ok station ∧
        after = network.setStation side station := by
  obtain ⟨station, acted, replaced⟩ := Fault.exists_of_bind_eq_ok done
  exact ⟨station, acted, (Except.ok.inj replaced).symm⟩

end Network

theorem Station.taken_isPrefix_of_act {station after : Station} {incoming : List Bytes}
    {move : Move} {now : Nat} (done : station.act incoming move now = .ok after) :
    station.taken <+: after.taken := by
  cases move with
  | send pending =>
      obtain ⟨⟨chunk, connection⟩, -, done⟩ := Fault.exists_of_bind_eq_ok done
      obtain rfl := Except.ok.inj done
      exact List.prefix_append station.taken chunk
  | close =>
      obtain ⟨connection, -, done⟩ := Fault.exists_of_bind_eq_ok done
      obtain rfl := Except.ok.inj done
      exact List.prefix_refl _
  | expire =>
      obtain ⟨⟨result, connection⟩, -, done⟩ := Fault.exists_of_bind_eq_ok done
      obtain rfl := Except.ok.inj done
      exact List.prefix_refl _
  | deliver number =>
      simp only [act] at done
      split at done
      · obtain rfl := Except.ok.inj done
        exact List.prefix_refl _
      · obtain ⟨connection, -, done⟩ := Fault.exists_of_bind_eq_ok done
        obtain rfl := Except.ok.inj done
        exact List.prefix_refl _
  | abort =>
      obtain rfl := Except.ok.inj done
      exact List.prefix_refl _
  | emit =>
      obtain rfl := Except.ok.inj done
      rw [emit]
      split <;> exact List.prefix_refl _
  | hear =>
      obtain rfl := Except.ok.inj done
      rw [hear]
      split <;> exact List.prefix_refl _

namespace Network

/-- What is short after a step was short before. -/
theorem Short.of_step {network after : Network} {step : Step} (short : after.Short)
    (done : network.step step = .ok after) : network.Short := by
  intro side
  cases step with
  | elapse time =>
      obtain rfl := Except.ok.inj done
      exact short side
  | act actor move =>
      obtain ⟨station, acted, rfl⟩ := exists_of_step_act done
      have bound := short side
      rcases side.eq_or_eq_other actor with rfl | rfl
      · rw [station_setStation] at bound
        exact Nat.lt_of_le_of_lt (Station.taken_isPrefix_of_act acted).length_le bound
      · rwa [station_setStation_other] at bound

/-- What is short after a run was short before. -/
theorem Short.of_run {network after : Network} {steps : List Step} (short : after.Short)
    (done : network.run steps = .ok after) : network.Short := by
  induction steps generalizing network with
  | nil =>
      obtain rfl := Except.ok.inj done
      exact short
  | cons step steps ih =>
      rw [run_cons] at done
      obtain ⟨middle, stepped, done⟩ := Fault.exists_of_bind_eq_ok done
      exact (ih done).of_step stepped

end Network
end ReliableTransport
