import Mathlib.Algebra.GroupWithZero.Nat
import ReliableTransport.Proofs.Station.Phases
import ReliableTransport.Proofs.Station.Timeouts

/-!
# A vigil

Nothing arrives any more, and whenever the deadline expires everything outstanding is sent once
more.  Each deadline follows the last one by the timeout, which doubles up to its bound or stays.
This goes on until the limit that applies is reached, when the connection ends, or until no clock
can show the next deadline.
-/

namespace ReliableTransport

open Fault

namespace Connection

/-- Let some deadlines expire one after another.  Each is reported with its outcome. -/
def vigil (connection : Connection) :
    Nat → Except Fault (List (Nat × Except Failure Unit) × Connection)
  | 0 => .ok ([], connection)
  | rounds + 1 => do
      match ← connection.alarm with
      | none => return ([], connection)
      | some deadline =>
          let (outcome, after) ← connection.expire deadline
          (after.vigil rounds).map (Prod.map ((deadline, outcome) :: ·) id)

/-- The timeout after some resends in a row. -/
def pause (connection : Connection) (resends : Nat) : Nat :=
  if connection.config.backoff then
    min (2 ^ resends * connection.roundTrip.timeout) connection.config.maxTimeout
  else connection.roundTrip.timeout

/-- The deadline after some resends in a row. -/
def due (connection : Connection) (first resends : Nat) : Nat :=
  first + ((List.range resends).map fun count => connection.pause (count + 1)).sum

/-- The deadlines of some resends in a row. -/
def schedule (connection : Connection) (first resends : Nat) : List Nat :=
  (List.range resends).map (connection.due first)

/-- The connection after everything outstanding was sent once more at given times. -/
def persist (connection : Connection) (times : List Nat) : Connection :=
  times.foldl renewed connection

/-- More resends are possible, within the limit that applies or else the range of their count. -/
def Permits (connection : Connection) (retries resends : Nat) : Prop :=
  match connection.patience with
  | some limit => resends ≤ limit - retries
  | none => retries + resends < UInt32.size

variable {connection after : Connection} {first now retries resends : Nat}

theorem vigil_succ {outcome : Except Failure Unit} (shown : connection.alarm = .ok (some first))
    (expired : connection.expire first = .ok (outcome, after)) (rounds : Nat) :
    connection.vigil (rounds + 1) =
      (after.vigil rounds).map (Prod.map ((first, outcome) :: ·) id) := by
  rw [vigil, shown]
  change (connection.expire first >>= _) = _
  rw [expired]
  rfl

theorem vigil_of_isEmpty (none_left : connection.flight.segments = []) (rounds : Nat) :
    connection.vigil rounds = .ok ([], connection) := by
  have silent : connection.alarm = .ok none := by
    rw [alarm, Flight.alarm, Flight.deadline?, none_left]
    rfl
  cases rounds with
  | zero => rfl
  | succ rounds =>
      rw [vigil, silent]
      rfl

theorem persist_keeps (connection : Connection) (times : List Nat) :
    (connection.persist times).patience = connection.patience ∧
      ((connection.persist times).FinalFin ↔ connection.FinalFin) ∧
      (connection.persist times).config = connection.config := by
  induction times generalizing connection with
  | nil => exact ⟨rfl, Iff.rfl, rfl⟩
  | cons time times ih => exact ih (connection.renewed time)

theorem pause_renewed (connection : Connection) (now resends : Nat) :
    (connection.renewed now).pause resends = connection.pause (resends + 1) := by
  simp only [pause, renewed, nextTimeout]
  split
  · rw [← Nat.mul_min_mul_left, Nat.min_assoc,
      Nat.min_eq_right (Nat.le_mul_of_pos_left _ (Nat.two_pow_pos resends))]
    congr 1
    rw [Nat.pow_succ, Nat.mul_assoc, Nat.mul_comm 2]
  · rfl

theorem due_renewed (connection : Connection) (first now resends : Nat) :
    (connection.renewed now).due (first + connection.nextTimeout) resends =
      connection.due first (resends + 1) := by
  have next_eq : connection.nextTimeout = connection.pause 1 := by
    rw [pause, nextTimeout, pow_one, Nat.mul_comm]
  simp only [due, pause_renewed, next_eq, List.range_succ_eq_map, List.map_cons, List.map_map,
    List.sum_cons, Function.comp_def, Nat.add_assoc]

theorem schedule_succ (connection : Connection) (first resends : Nat) :
    connection.schedule first (resends + 1) =
      first :: (connection.renewed first).schedule (first + connection.nextTimeout) resends := by
  have later : (connection.renewed first).due (first + connection.nextTimeout) =
      fun resends => connection.due first (resends + 1) :=
    funext (connection.due_renewed first first)
  rw [schedule, schedule, later, List.range_succ_eq_map, List.map_cons, List.map_map]
  rfl

/-- A sound connection waits for a deadline after some resends. -/
structure Waits (connection : Connection) (deadline retries : Nat) : Prop where
  /-- It is sound. -/
  sound : ∃ background ledger settled, connection.Sound background ledger settled
  /-- It goes on. -/
  running : connection.phase ≠ .terminated
  /-- The timeout is within its bound. -/
  obeys : connection.roundTrip.Obeys connection.config
  /-- Some outstanding segment was resent most often. -/
  most : connection.flight.maxRetries? = some retries
  /-- The oldest one times out. -/
  expires : connection.deadline? = some deadline

namespace Waits

/-- A resend is counted, and the timeout starts anew. -/
theorem renewed (waits : connection.Waits now retries) (counted : retries + 1 < UInt32.size) :
    (connection.renewed now).Waits (now + connection.nextTimeout) (retries + 1) := by
  obtain ⟨background, ledger, settled, sound⟩ := waits.sound
  obtain ⟨rest, -, carries⟩ := sound.writes.carries waits.running
  obtain ⟨⟨oldest, mem, -⟩, le⟩ := Flight.maxRetries?_eq_some_iff.mp waits.most
  have sent : connection.flight.segments.mapM (·.resend now connection.recvNext) =
      .ok (connection.resent now) := by
    refine carries.mapM_resend_eq (fun segment mem => ?_) now connection.recvNext
    have segment_le := le segment mem
    omega
  exact
    { sound := ⟨background, ledger, settled, sound.resend sent _⟩
      running := waits.running
      obeys := ⟨waits.obeys.maxTimeout_eq, nextTimeout_le waits.obeys⟩
      most := maxRetries?_renewed waits.most now
      expires := deadline?_renewed (List.ne_nil_of_mem mem) now }

theorem expire_eq (waits : connection.Waits now retries)
    (doubles : connection.config.maxTimeout * 2 < Duration.limit)
    (word : ∀ limit, connection.config.maxRetransmissions = some limit → limit < UInt32.size)
    (permits : connection.Permits retries (resends + 1)) :
    retries + 1 < UInt32.size ∧ connection.expire now = .ok (.ok (), connection.renewed now) ∧
      (connection.renewed now).Permits (retries + 1) resends := by
  obtain ⟨background, ledger, settled, sound⟩ := waits.sound
  rw [sound.expire_eq waits.running waits.obeys doubles word waits.most, Permits]
  have kept : (connection.renewed now).patience = connection.patience := rfl
  rw [Permits] at permits
  rw [kept]
  cases patience_eq : connection.patience with
  | some limit =>
      have limit_lt := patience_lt word patience_eq
      simp only [patience_eq] at permits
      simp only [Option.some.injEq, exists_eq_left', reduceCtorEq, false_and, if_false]
      rw [if_neg (by omega)]
      exact ⟨by omega, rfl, by omega⟩
  | none =>
      simp only [patience_eq] at permits
      simp only [reduceCtorEq, false_and, exists_false, if_false, true_and]
      rw [if_neg (by omega)]
      exact ⟨by omega, rfl, by omega⟩

theorem vigil_add (waits : connection.Waits first retries)
    (doubles : connection.config.maxTimeout * 2 < Duration.limit)
    (word : ∀ limit, connection.config.maxRetransmissions = some limit → limit < UInt32.size)
    (permits : connection.Permits retries resends)
    (shown : ∀ time ∈ connection.schedule first resends, time < Time.limit) :
    (connection.persist (connection.schedule first resends)).Waits (connection.due first resends)
        (retries + resends) ∧
      ∀ rounds, connection.vigil (resends + rounds) =
        ((connection.persist (connection.schedule first resends)).vigil rounds).map
          (Prod.map ((connection.schedule first resends).map (·, .ok ()) ++ ·) id) := by
  induction resends generalizing connection first retries with
  | zero =>
      refine ⟨waits, fun rounds => ?_⟩
      rw [Nat.zero_add]
      change connection.vigil rounds = (connection.vigil rounds).map id
      rw [Except.map_id]
      rfl
  | succ resends ih =>
      obtain ⟨counted, expired, permits⟩ := waits.expire_eq doubles word permits
      rw [schedule_succ] at shown ⊢
      have first_lt := shown first List.mem_cons_self
      obtain ⟨waits', run⟩ := ih (waits.renewed counted) doubles word permits fun time mem =>
        shown time (List.mem_cons_of_mem first mem)
      rw [due_renewed, Nat.add_assoc, Nat.add_comm 1] at waits'
      refine ⟨waits', fun rounds => ?_⟩
      have alarm_eq := alarm_eq waits.expires
      rw [if_pos first_lt] at alarm_eq
      rw [Nat.add_right_comm, vigil_succ alarm_eq expired, run]
      change Except.map _ (Except.map _ (Connection.vigil (connection.persist (first :: _)) _)) = _
      cases (connection.persist _).vigil rounds <;> rfl

theorem vigil_error (waits : connection.Waits now retries) (dark : Time.limit ≤ now)
    (rounds : Nat) :
    connection.vigil (rounds + 1) = .error .instant := by
  rw [vigil, alarm_eq waits.expires, if_neg (Nat.not_lt.mpr dark)]
  rfl

theorem vigil_last (waits : connection.Waits now retries)
    (doubles : connection.config.maxTimeout * 2 < Duration.limit)
    (word : ∀ limit, connection.config.maxRetransmissions = some limit → limit < UInt32.size)
    (shown : now < Time.limit) {limit : Nat} (limited : connection.patience = some limit)
    (reached : limit ≤ retries) (rounds : Nat) :
    connection.vigil (rounds + 1) =
      .ok ([(now, if connection.FinalFin then .ok () else .error .timedOut)],
        connection.abort) := by
  obtain ⟨background, ledger, settled, sound⟩ := waits.sound
  have alarm_eq := alarm_eq waits.expires
  rw [if_pos shown] at alarm_eq
  have expired := sound.expire_eq waits.running waits.obeys doubles word waits.most now
  rw [if_pos ⟨limit, limited, reached⟩] at expired
  rw [vigil_succ alarm_eq expired, vigil_of_isEmpty rfl]
  rfl

end Waits
end Connection

namespace Station

variable {config : Config} {isn : SeqNum} {station : Station}

/-- What an end has outstanding, it waits for. -/
theorem Arises.exists_waits (arises : Arises config isn station) (valid : config.Valid)
    (outstanding : station.connection.flight.segments ≠ []) :
    station.connection.config = config ∧
      ∃ first retries, station.connection.Waits first retries := by
  obtain ⟨ledger, settled, sound⟩ := arises.sound
  have config_eq : station.connection.config = config := sound.connection.config_eq
  obtain ⟨running, retries, most⟩ := sound.exists_most outstanding
  obtain ⟨first, expires, -⟩ := Connection.exists_deadline outstanding
  exact ⟨config_eq, first, retries, ⟨_, ledger, settled, sound.connection⟩, running,
    config_eq ▸ arises.obeys valid, most, expires⟩

/-- An end whose deadlines expire and nothing else sends everything outstanding again, as often as
the limit permits, and then ends.  Only a deadline that no clock can show stops this. -/
theorem Arises.vigil_outcome (arises : Arises config isn station) (valid : config.Valid)
    (doubles : config.maxTimeout * 2 < Duration.limit)
    (word : ∀ limit, config.maxRetransmissions = some limit → limit < UInt32.size)
    (outstanding : station.connection.flight.segments ≠ []) :
    ∃ first retries, station.connection.deadline? = some first ∧
      station.connection.flight.maxRetries? = some retries ∧
      ∀ resends, station.connection.Permits retries resends →
        (∀ time ∈ station.connection.schedule first resends, time < Time.limit) →
        station.connection.vigil resends =
          .ok ((station.connection.schedule first resends).map (·, .ok ()),
            station.connection.persist (station.connection.schedule first resends)) ∧
        ∀ rounds,
          (Time.limit ≤ station.connection.due first resends →
            station.connection.vigil (resends + (rounds + 1)) = .error .instant) ∧
          (station.connection.due first resends < Time.limit →
            ∀ limit, station.connection.patience = some limit → resends = limit - retries →
            station.connection.vigil (resends + (rounds + 1)) =
              .ok ((station.connection.schedule first resends).map (·, .ok ()) ++
                  [(station.connection.due first resends,
                    if station.connection.FinalFin then .ok () else .error .timedOut)],
                { station.connection.persist (station.connection.schedule first resends) with
                  flight := Flight.empty
                  phase := .terminated })) := by
  obtain ⟨config_eq, first, retries, waits⟩ := arises.exists_waits valid outstanding
  refine ⟨first, retries, waits.expires, waits.most, fun resends permits shown => ?_⟩
  obtain ⟨waits', run⟩ :=
    waits.vigil_add (config_eq ▸ doubles) (config_eq ▸ word) permits shown
  obtain ⟨patience_eq, finalFin_iff, config_eq'⟩ :=
    station.connection.persist_keeps (station.connection.schedule first resends)
  refine ⟨?_, fun rounds => ⟨fun dark => ?_, fun shown' limit limited resends_eq => ?_⟩⟩
  · have stopped := run 0
    rwa [Nat.add_zero, Connection.vigil, Except.map, Prod.map, List.append_nil] at stopped
  · rw [run, waits'.vigil_error dark]
    rfl
  · rw [config_eq] at config_eq'
    rw [run, waits'.vigil_last (config_eq' ▸ doubles) (config_eq' ▸ word) shown'
      (patience_eq.trans limited) (by omega)]
    simp only [finalFin_iff]
    rfl

/-- A SYN that is never answered is sent once more after one second, and given up two seconds
later. -/
theorem vigil_outcome_impatient :
    ∃ station : Station, Arises impatient ⟨4294967295⟩ station ∧
      station.connection.deadline? = some Duration.second ∧ ∀ rounds, ∃ last,
        station.connection.vigil (rounds + 2) =
          .ok ([(Duration.second, .ok ()), (3 * Duration.second, .error .timedOut)], last) := by
  have opened : ∃ station : Station, Arises impatient ⟨4294967295⟩ station ∧
      station.connection.flight.segments ≠ [] ∧
      station.connection.deadline? = some Duration.second ∧
      station.connection.flight.maxRetries? = some 0 ∧ station.connection.patience = some 1 ∧
      ¬ station.connection.FinalFin ∧
      station.connection.schedule Duration.second 1 = [Duration.second] ∧
      station.connection.due Duration.second 1 = 3 * Duration.second :=
    ⟨_, ⟨_, [(.operate .openActive, 0)], rfl, rfl⟩, by decide, rfl, rfl, rfl, by decide, rfl, rfl⟩
  obtain ⟨station, arises, outstanding, expires, most, limited, unfinished, schedule_eq, due_eq⟩ :=
    opened
  obtain ⟨first, retries, expires', most', outcome⟩ :=
    arises.vigil_outcome rfl (by decide) (by decide) outstanding
  obtain rfl : first = Duration.second := Option.some.inj (expires'.symm.trans expires)
  obtain rfl : retries = 0 := Option.some.inj (most'.symm.trans most)
  have permits : station.connection.Permits 0 1 := by
    rw [Connection.Permits, limited]
  obtain ⟨-, later⟩ := outcome 1 permits (by rw [schedule_eq]; decide)
  refine ⟨station, arises, expires, fun rounds => ?_⟩
  have given_up := (later rounds).2 (by rw [due_eq]; decide) 1 limited rfl
  rw [schedule_eq, due_eq, if_neg unfinished, Nat.add_comm 1] at given_up
  exact ⟨_, given_up⟩

/-- Parameters with a timeout so long that no clock can show two of them. -/
def tardy : Config :=
  { Network.narrow with
    initialTimeout := 2 ^ 62 * Duration.second
    maxTimeout := 2 ^ 62 * Duration.second
    backoff := false }

/-- A SYN may be sent five times more, but after the first time no clock can show the next
deadline. -/
theorem not_vigil_tardy :
    tardy.Valid ∧ tardy.maxTimeout * 2 < Duration.limit ∧
      ∃ station : Station, Arises tardy ⟨4294967295⟩ station ∧
        station.connection.flight.maxRetries? = some 0 ∧ station.connection.patience = some 5 ∧
        station.connection.alarm = .ok (some (2 ^ 62 * Duration.second)) ∧
        station.connection.vigil 2 = .error .instant :=
  ⟨rfl, by decide, _, ⟨_, [(.operate .openActive, 0)], rfl, rfl⟩, rfl, rfl, rfl, rfl⟩

end Station
end ReliableTransport
