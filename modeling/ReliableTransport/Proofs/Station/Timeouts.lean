import ReliableTransport.Proofs.Connection.Timeouts
import ReliableTransport.Proofs.Station.Copies

/-!
# The timeouts of an end

What an expired deadline does to an end is determined by the number of resends of its most resent
segment and by the limit that applies: it ends the connection, or sends all that is unacknowledged
once more.  Over a whole life, a limit on resends is a limit on the copies of each segment.
-/

namespace ReliableTransport

open Fault Script

namespace Station

variable {config : Config} {isn : SeqNum} {station after : Station}

theorem obeys_of_undergo {occurrence : Occurrence} {now : Nat}
    (obeys : station.connection.roundTrip.Obeys config)
    (done : station.undergo occurrence now = .ok after) :
    after.connection.roundTrip.Obeys config := by
  cases occurrence with
  | operate operation =>
      obtain ⟨connection, applied, rfl⟩ := exists_of_undergo_operate done
      exact (Connection.apply_dispatches applied).obeys obeys
  | emit =>
      obtain rfl := Except.ok.inj done
      rw [connection_emit]
      exact obeys
  | hear =>
      obtain rfl := Except.ok.inj done
      rw [connection_hear]
      exact obeys

theorem Arises.obeys (arises : Arises config isn station) (valid : config.Valid) :
    station.connection.roundTrip.Obeys config := by
  obtain ⟨connection, history, created, lived⟩ := arises
  refine live_induction (·.connection.roundTrip.Obeys config) obeys_of_undergo ?_ lived
  obtain ⟨window, -, rfl⟩ := Connection.eq_of_create created
  exact .initial valid

theorem Sound.exists_most {ledger : Ledger} {settled : Nat}
    (sound : Sound config isn station ledger settled)
    (outstanding : station.connection.flight.segments ≠ []) :
    station.connection.phase ≠ .terminated ∧
      ∃ retries, station.connection.flight.maxRetries? = some retries := by
  refine ⟨fun past => outstanding (sound.connection.writes.cleared past), ?_⟩
  cases most : station.connection.flight.maxRetries? with
  | none =>
      rw [Flight.maxRetries?, List.max?_eq_none_iff, List.map_eq_nil_iff] at most
      exact absurd most outstanding
  | some retries => exact ⟨retries, rfl⟩

/-- What an expired deadline does to a connection whose most resent segment was resent some number
of times. -/
structure Expiry (connection : Connection) (now retries : Nat) : Prop where
  /-- No outstanding segment was resent more often. -/
  most : connection.flight.maxRetries? = some retries
  /-- At the limit that applies, the connection ends, without a failure if only a final FIN was
  left.  Otherwise everything outstanding is sent once more, unless a count leaves its range. -/
  outcome : connection.expire now =
    if ∃ limit, connection.patience = some limit ∧ limit ≤ retries then
      .ok (if connection.FinalFin then .ok () else .error .timedOut,
        { connection with flight := Flight.empty, phase := .terminated })
    else if connection.patience = none ∧ UInt32.size ≤ retries + 1 then .error .count
    else .ok (.ok (), connection.renewed now)
  /-- What is sent once more is as it was but for the acknowledgment number. -/
  encodes : ∀ segment ∈ connection.flight.segments, ∃ header payload,
    segment.raw = Segment.encode header payload ∧ header.seq = segment.seq ∧
      (segment.again now connection.recvNext).raw =
        Segment.encode { header with ack := connection.recvNext } payload
  /-- It covers all that is unacknowledged. -/
  covers : ∀ offset, offset < connection.inFlight → ∃ segment ∈ connection.resent now,
    (connection.sendUnacked.advance offset).since segment.seq < segment.length
  /-- It times out together, if a clock can show when. -/
  alarm_eq : (connection.renewed now).alarm =
    (Time.checked (now + connection.nextTimeout)).map some

theorem Arises.expiry (arises : Arises config isn station) (valid : config.Valid)
    (doubles : config.maxTimeout * 2 < Duration.limit)
    (word : ∀ limit, config.maxRetransmissions = some limit → limit < UInt32.size)
    (outstanding : station.connection.flight.segments ≠ []) (now : Nat) :
    ∃ retries, Expiry station.connection now retries := by
  obtain ⟨ledger, settled, sound⟩ := arises.sound
  have config_eq : station.connection.config = config := sound.connection.config_eq
  obtain ⟨running, retries, most⟩ := sound.exists_most outstanding
  have expired := sound.connection.expire_eq running (config_eq ▸ arises.obeys valid)
    (config_eq ▸ doubles) (config_eq ▸ word) most now
  refine ⟨retries, most, expired, fun segment mem => ?_, fun offset inside => ?_, ?_⟩
  · exact sound.connection.exists_encode running mem now _
  · obtain ⟨segment, mem, covers⟩ := sound.connection.exists_covering running inside
    exact ⟨_, List.mem_map_of_mem mem, covers⟩
  · have due := Connection.deadline?_renewed outstanding now
    rw [Connection.alarm, Flight.alarm]
    rw [Connection.deadline?] at due
    rw [due]
    rfl

/-- An expired deadline ends the connection or sends everything outstanding once more.  Over a whole
life, no entry of the script is sent more often than once and then as often as permitted. -/
theorem Arises.expire_outcome (arises : Arises config isn station) (valid : config.Valid)
    (doubles : config.maxTimeout * 2 < Duration.limit)
    (word : ∀ limit, config.maxRetransmissions = some limit → limit < UInt32.size) :
    (station.connection.flight.segments ≠ [] →
      ∀ now, ∃ retries, Expiry station.connection now retries) ∧
    ∀ limit, config.maxRetransmissions = some limit → ∃ script origins base,
      Script.Valid script ∧ content script = station.taken ∧
      Tally isn config.receiveWindow limit script station.connection.flight.segments station.sent
        origins base := by
  refine ⟨arises.expiry valid doubles word, fun limit limited => ?_⟩
  obtain ⟨ledger, settled, origins, base, sound, tally⟩ := arises.tallied limited
  exact ⟨ledger.script, origins, base, sound.connection.writes.valid, sound.content_eq, tally⟩

/-- A limit of one resend. -/
def impatient : Config := { Network.narrow with maxRetransmissions := some 1 }

/-- A SYN that is never answered is sent twice before the connection ends. -/
theorem expire_outcome_impatient :
    ∃ station : Station, Arises impatient ⟨4294967295⟩ station ∧ station.sent.length = 2 ∧
      station.connection.expire (3 * Duration.second) =
        .ok (.error .timedOut,
          { station.connection with flight := Flight.empty, phase := .terminated }) ∧
      ∃ (script : List Cargo) (origins : List (Option Nat)),
        List.Forall₂ (Traces ⟨4294967295⟩ 4 script) station.sent origins ∧
          ∀ number, origins.count (some number) ≤ 2 := by
  let history : List (Occurrence × Nat) :=
    [(.operate .openActive, 0), (.operate .expire, Duration.second), (.emit, Duration.second)]
  have arises : Arises impatient ⟨4294967295⟩ _ := ⟨_, history, rfl, rfl⟩
  obtain ⟨expires, copies⟩ := arises.expire_outcome rfl (by decide) (by decide)
  obtain ⟨retries, expiry⟩ := expires (by decide) (3 * Duration.second)
  have expired := expiry.outcome
  obtain rfl : 1 = retries := Option.some.inj expiry.most
  rw [if_pos ⟨1, rfl, Nat.le_refl 1⟩, if_neg (by decide)] at expired
  obtain ⟨script, origins, base, -, -, tally⟩ := copies 1 rfl
  exact ⟨_, arises, rfl, expired, script, origins, tally.traces, tally.count_le⟩

/-- No limit on the resends, and a timeout so long that no clock can show two of them. -/
def unlimited : Config :=
  { Network.narrow with
    maxRetransmissions := none
    initialTimeout := 2 ^ 62 * Duration.second
    maxTimeout := 2 ^ 62 * Duration.second
    backoff := false }

/-- A connection is asked for, and the deadline of the SYN expires some number of times. -/
def unanswered (count : Nat) : List (Occurrence × Nat) :=
  (.operate .openActive, 0) :: List.replicate count (.operate .expire, 0)

theorem expire_unanswered (arises : Arises unlimited ⟨0⟩ station)
    (phase_eq : station.connection.phase = .synSent) {count : Nat}
    (most : station.connection.flight.maxRetries? = some count) (now : Nat) :
    station.connection.expire now =
      if UInt32.size ≤ count + 1 then .error .count
      else .ok (.ok (), station.connection.renewed now) := by
  have outstanding : station.connection.flight.segments ≠ [] := by
    intro empty
    simp [Flight.maxRetries?, empty] at most
  obtain ⟨retries, expiry⟩ :=
    arises.expiry rfl (by decide) (fun _ limited => by cases limited) outstanding now
  obtain rfl : count = retries := Option.some.inj (most.symm.trans expiry.most)
  have endless : station.connection.patience = none := by
    obtain ⟨ledger, settled, sound⟩ := arises.sound
    rw [Connection.patience, sound.connection.config_eq]
    simp [Connection.FinalFin, phase_eq, unlimited]
  rw [expiry.outcome, if_neg (by simp [endless])]
  simp only [endless, true_and]

/-- A SYN is resent as often as 32 bits can count. -/
theorem live_unanswered {count : Nat} (counted : count < UInt32.size) :
    ∃ connection station, Connection.create unlimited ⟨0⟩ = .ok connection ∧
      live { connection } (unanswered count) = .ok station ∧
      station.connection.phase = .synSent ∧
      station.connection.flight.maxRetries? = some count := by
  induction count with
  | zero => exact ⟨_, _, rfl, rfl, rfl, rfl⟩
  | succ count ih =>
      obtain ⟨connection, station, created, lived, phase_eq, most⟩ := ih (Nat.lt_of_succ_lt counted)
      have expired := expire_unanswered ⟨connection, _, created, lived⟩ phase_eq most 0
      rw [if_neg (Nat.not_le.mpr counted)] at expired
      have undergone : station.live [(.operate .expire, 0)] = .ok { station with
          connection := station.connection.renewed 0
          taken := station.taken ++ []
          closing := station.closing || false } := by
        rw [live_cons, undergo, Connection.apply, expired]
        rfl
      have lived' : live { connection } (unanswered (count + 1)) =
          station.live [(.operate .expire, 0)] := by
        rw [unanswered, List.replicate_succ', ← List.cons_append, live_append, ← unanswered, lived]
        rfl
      exact ⟨connection, _, created, lived'.trans undergone, phase_eq,
        Connection.maxRetries?_renewed most 0⟩

/-- Behind `2 ^ 32 - 1` resends, a SYN cannot be resent.  Late enough it can be, but no clock shows
the deadline that follows. -/
theorem not_expire_outcome_unlimited :
    unlimited.Valid ∧ unlimited.maxTimeout * 2 < Duration.limit ∧
      (∃ connection station, Connection.create unlimited ⟨0⟩ = .ok connection ∧
        live { connection } (unanswered 4294967295) = .ok station ∧
        station.connection.flight.maxRetries? = some 4294967295 ∧
        station.connection.expire 0 = .error .count) ∧
      ∃ connection station after, Connection.create unlimited ⟨0⟩ = .ok connection ∧
        live { connection } (unanswered 0) = .ok station ∧
        station.connection.expire (2 ^ 62 * Duration.second) = .ok (.ok (), after) ∧
        after.alarm = .error .instant := by
  refine ⟨rfl, by decide, ?_, _, _, _, rfl, rfl, rfl, rfl⟩
  obtain ⟨connection, station, created, lived, phase_eq, most⟩ :=
    live_unanswered (show 4294967295 < UInt32.size by decide)
  have expired := expire_unanswered ⟨connection, _, created, lived⟩ phase_eq most 0
  rw [if_pos (by decide)] at expired
  exact ⟨connection, station, created, lived, most, expired⟩

end Station
end ReliableTransport
