import ReliableTransport.Proofs.Connection.Progress
import ReliableTransport.Proofs.Station.Attention

/-!
# Nothing stops an end

At moderate times nothing stops an end, whatever its application does and whatever arrives: its
connection is sound, so that its flight and its windows are in order, and calm, so that no length of
time and no count leaves its range.
-/

namespace ReliableTransport

open Fault Script

namespace Station

variable {config : Config} {isn : SeqNum} {station after : Station} {ledger : Ledger}
  {settled count now : Nat}

/-- Something happens at a moderate time, and bytes that arrive can be counted by 32 bits. -/
def Mild (step : Occurrence × Nat) : Prop :=
  step.2 ≤ moderate ∧ ∀ raw, step.1 = .operate (.receive raw) → raw.length < UInt32.size

/-- The number of times that the deadline expires. -/
def expiries (history : List (Occurrence × Nat)) : Nat :=
  history.countP fun step => step.1 = .operate .expire

theorem Sound.exists_undergo (sound : Sound config isn station ledger settled)
    (calm : station.connection.Has (Calm count)) {occurrence : Occurrence}
    (mild : Mild (occurrence, now)) (few : count + expiries [(occurrence, now)] < UInt32.size) :
    ∃ after, station.undergo occurrence now = .ok after ∧
      after.connection.Has (Calm (count + expiries [(occurrence, now)])) := by
  have connection := sound.connection
  have lasting : Lasting now (Calm count) := Calm.lasting mild.1
  have operate {operation : Connection.Operation} {next : Connection}
      (applied : station.connection.apply operation now = .ok next)
      (calm : next.Has (Calm (count + expiries [(.operate operation, now)]))) :
      ∃ after, station.undergo (.operate operation) now = .ok after ∧
        after.connection.Has (Calm (count + expiries [(.operate operation, now)])) :=
    ⟨_, by rw [Station.undergo, applied]; rfl, calm⟩
  cases occurrence with
  | emit => exact ⟨station.emit, rfl, by rw [connection_emit]; exact calm⟩
  | hear => exact ⟨station.hear, rfl, by rw [connection_hear]; exact calm⟩
  | operate operation =>
      cases operation with
      | openActive =>
          obtain ⟨next, asked, -⟩ := connection.openActive now
          exact operate asked ((Connection.openActive_timely lasting calm).2 next asked)
      | listen => exact operate rfl calm
      | send pending =>
          obtain ⟨next, sent, -⟩ := connection.sendChunk pending now
          refine operate (by rw [Connection.apply, sent]; rfl)
            ((Connection.sendChunk_timely lasting calm pending).2 _ sent)
      | close =>
          obtain ⟨next, closed, -⟩ := connection.close now
          exact operate closed ((Connection.close_timely lasting calm).2 next closed)
      | abort => exact operate rfl (lasting.clear calm)
      | expire =>
          obtain ⟨result, next, expired⟩ := connection.exists_expire calm now few
          exact operate (by rw [Connection.apply, expired]; rfl)
            (Connection.calm_expire calm mild.1 expired)
      | receive raw =>
          obtain ⟨next, received, calm⟩ := connection.exists_receive calm mild.1 (mild.2 raw rfl)
          exact operate received calm

theorem Sound.exists_live (sound : Sound config isn station ledger settled)
    (calm : station.connection.Has (Calm count)) {history : List (Occurrence × Nat)}
    (mild : ∀ step ∈ history, Mild step) (few : count + expiries history < UInt32.size) :
    ∃ after, station.live history = .ok after ∧
      after.connection.Has (Calm (count + expiries history)) := by
  induction history generalizing station ledger settled count with
  | nil => exact ⟨station, rfl, calm⟩
  | cons step history ih =>
      obtain ⟨occurrence, now⟩ := step
      have split : expiries ((occurrence, now) :: history) =
          expiries [(occurrence, now)] + expiries history := by
        rw [expiries, expiries, expiries, ← List.countP_append, List.singleton_append]
      rw [split, ← Nat.add_assoc] at few ⊢
      obtain ⟨middle, happened, calm⟩ := sound.exists_undergo calm
        (mild _ List.mem_cons_self) (by omega)
      obtain ⟨ledger', settled', sound, -⟩ := (sound.undergo occurrence now).of_ok happened
      obtain ⟨after, lived, calm⟩ := ih sound calm
        (fun step mem => mild step (List.mem_cons_of_mem _ mem)) few
      refine ⟨after, ?_, calm⟩
      rw [live_cons, happened]
      exact lived

/-- Nothing stops an end with valid parameters at moderate times, whatever it does and whatever
arrives, as long as its deadline expires fewer times than 32 bits can count. -/
theorem nothing_stops (config_valid : config.Valid)
    (granularity_le : config.clockGranularity ≤ moderate)
    (maxTimeout_le : config.maxTimeout ≤ moderate) (isn : SeqNum)
    (history : List (Occurrence × Nat)) (mild : ∀ step ∈ history, Mild step)
    (few : expiries history < UInt32.size) :
    ∃ connection station, Connection.create config isn = .ok connection ∧
      Station.live { connection } history = .ok station ∧
      (∃ alarm, station.connection.alarm = .ok alarm) ∧
      (∀ bytes, .data bytes ∈ station.events → bytes.length < UInt32.size) ∧
      ∀ seq payload arrival rest,
        station.connection.window.receive seq payload = .ok (arrival, rest) →
        (arrival.delivered = [] ∧ rest = station.connection.window) ∨
          ∃ offset skipped, offset ≤ station.connection.window.capacity ∧
            skipped ≤ payload.length ∧
            station.connection.window.accept offset (payload.drop skipped) = (arrival, rest) := by
  obtain ⟨connection, created, -⟩ := Connection.Follows.create config_valid isn
  have fresh : connection.Has (Calm 0) :=
    Connection.calm_create config_valid granularity_le maxTimeout_le created 0
  obtain ⟨station, lived, calm⟩ := (Sound.create created).exists_live fresh mild (by omega)
  refine ⟨connection, station, created, lived, calm.exists_alarm, fun bytes told => ?_,
    fun seq payload arrival rest received => ?_⟩
  · have fits := (Arises.attentive ⟨connection, history, created, lived⟩).fits bytes told
    have bound : config.receiveWindow.toNat < 65536 := config.receiveWindow.toNat_lt
    simp only [UInt32.size]
    omega
  · refine (ReceiveWindow.receive_cases received).imp_right ?_
    rintro ⟨offset, skipped, inside, within, -, accepted⟩
    exact ⟨offset, skipped, inside, within, accepted⟩

/-- Garbage, the acknowledgment of an antipode and data that overlap what was received arrive, while
the deadline expires. -/
theorem nothing_stops_hostile :
    ∃ connection station, Connection.create Network.narrow ⟨4294967295⟩ = .ok connection ∧
      Station.live { connection }
        [(.operate .openActive, 0), (.operate .expire, moderate),
          (.operate (.receive [1, 2, 3]), moderate),
          (.operate (.receive ((Cargo.syn true).encode ⟨4294967295⟩ ⟨0⟩ 4)), moderate),
          (.operate (.receive ((Cargo.data [65]).encode ⟨0⟩ ⟨2147483648⟩ 4)), 7),
          (.operate (.receive ((Cargo.data [65, 66, 67]).encode ⟨0⟩ ⟨0⟩ 4)), 7),
          (.operate .close, 8), (.operate .expire, moderate)] = .ok station ∧
      ∃ alarm, station.connection.alarm = .ok alarm := by
  have valid : Network.narrow.Valid := rfl
  obtain ⟨connection, station, created, lived, shown, -⟩ :=
    nothing_stops valid (by decide) (by decide) ⟨4294967295⟩
      [(.operate .openActive, 0), (.operate .expire, moderate),
        (.operate (.receive [1, 2, 3]), moderate),
        (.operate (.receive ((Cargo.syn true).encode ⟨4294967295⟩ ⟨0⟩ 4)), moderate),
        (.operate (.receive ((Cargo.data [65]).encode ⟨0⟩ ⟨2147483648⟩ 4)), 7),
        (.operate (.receive ((Cargo.data [65, 66, 67]).encode ⟨0⟩ ⟨0⟩ 4)), 7),
        (.operate .close, 8), (.operate .expire, moderate)]
      (by simp [Mild]; decide) (by decide)
  exact ⟨connection, station, created, lived, shown⟩

end Station
end ReliableTransport
