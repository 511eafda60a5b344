import ReliableTransport.Proofs.Connection.Estimates
import ReliableTransport.Proofs.Connection.Recovery
import ReliableTransport.Proofs.Network.Preservation

/-!
# Estimates within the elapsed time

No round trip takes longer than the clock has run.  So as long as the clock and its granularity are
moderate, the estimates of the round-trip time are too, and segments that arrive at moderate times
find them so.
-/

namespace ReliableTransport

theorem Connection.transmit_cases {connection after : Connection} {flags : Flags}
    {payload : Bytes} {now : Nat} (done : connection.transmit flags payload now = .ok after) :
    ∃ flight sendNext outbox, after = { connection with flight, sendNext, outbox } := by
  obtain ⟨flight, sendNext, rfl⟩ := eq_of_transmit done
  exact ⟨_, _, _, rfl⟩

theorem Connection.roundTrip_create {config : Config} {isn : SeqNum} {connection : Connection}
    (created : Connection.create config isn = .ok connection) :
    connection.config = config ∧ connection.roundTrip = RoundTrip.initial config := by
  obtain ⟨window, -, rfl⟩ := Connection.eq_of_create created
  exact ⟨rfl, rfl⟩

theorem Connection.roundTrip_openActive {connection after : Connection} {now : Nat}
    (asked : connection.openActive now = .ok after) :
    after.config = connection.config ∧ after.roundTrip = connection.roundTrip := by
  rw [openActive] at asked
  split at asked
  · obtain ⟨asking, transmitted, asked⟩ := Fault.exists_of_bind_eq_ok asked
    obtain ⟨flight, sendNext, outbox, rfl⟩ := transmit_cases transmitted
    obtain rfl := Except.ok.inj asked
    exact ⟨rfl, rfl⟩
  · obtain rfl := Except.ok.inj asked
    exact ⟨rfl, rfl⟩

theorem Connection.receiveAll_timely {connection : Connection} {limit : Nat}
    (within : connection.roundTrip.Within limit) (representable : limit * 16 ≤ Duration.limit)
    {arrivals : List (Bytes × Nat)} (times_le : ∀ arrival ∈ arrivals, arrival.2 ≤ limit) :
    Fault.Timely (·.roundTrip.Within limit) (connection.receiveAll arrivals) := by
  induction arrivals generalizing connection with
  | nil => exact .ok within
  | cons arrival arrivals ih =>
      obtain ⟨raw, now⟩ := arrival
      have now_le := times_le (raw, now) (by simp)
      have lasting := Lasting.within representable now_le
      refine (receive_timely lasting within raw).bind fun middle within => ?_
      exact ih within fun arrival mem => times_le arrival (List.mem_cons_of_mem _ mem)

/-- What happens at one end leaves its estimates within the time that went by. -/
theorem Station.act_within {station after : Station} {incoming : List Bytes} {move : Move}
    {limit now : Nat} (within : station.connection.roundTrip.Within limit)
    (representable : limit * 16 ≤ Duration.limit) (now_le : now ≤ limit)
    (done : station.act incoming move now = .ok after) :
    after.connection.roundTrip.Within limit := by
  have lasting := Lasting.within representable now_le
  cases move with
  | send pending =>
      obtain ⟨⟨chunk, connection⟩, sent, done⟩ := Fault.exists_of_bind_eq_ok done
      obtain rfl := Except.ok.inj done
      exact (Connection.sendChunk_timely lasting within pending).2 _ sent
  | close =>
      obtain ⟨connection, closed, done⟩ := Fault.exists_of_bind_eq_ok done
      obtain rfl := Except.ok.inj done
      exact (Connection.close_timely lasting within).2 _ closed
  | abort =>
      obtain rfl := Except.ok.inj done
      exact within
  | expire =>
      obtain ⟨⟨result, connection⟩, expired, done⟩ := Fault.exists_of_bind_eq_ok done
      obtain rfl := Except.ok.inj done
      exact Connection.expire_within within expired
  | deliver number =>
      simp only [act] at done
      split at done
      · obtain rfl := Except.ok.inj done
        exact within
      · next raw _ =>
          obtain ⟨connection, received, done⟩ := Fault.exists_of_bind_eq_ok done
          obtain rfl := Except.ok.inj done
          exact (Connection.receive_timely lasting within raw).2 _ received
  | emit =>
      obtain rfl := Except.ok.inj done
      rw [connection_emit]
      exact within
  | hear =>
      obtain rfl := Except.ok.inj done
      rw [connection_hear]
      exact within

namespace Network

/-- The estimates of all ends with a moderate clock granularity are within a limit. -/
def EstimatesWithin (network : Network) (limit : Nat) : Prop :=
  ∀ side, (network.station side).connection.config.clockGranularity ≤ limit →
    (network.station side).connection.roundTrip.Within limit

theorem estimatesWithin_start {opener listener : Config} {openerIsn listenerIsn : SeqNum}
    {now : Nat} {network : Network}
    (started : start opener listener openerIsn listenerIsn now = .ok network) (limit : Nat) :
    network.EstimatesWithin limit := by
  obtain ⟨first, created, started⟩ := Fault.exists_of_bind_eq_ok started
  obtain ⟨opened, asked, started⟩ := Fault.exists_of_bind_eq_ok started
  obtain ⟨second, created', started⟩ := Fault.exists_of_bind_eq_ok started
  obtain rfl := Except.ok.inj started
  obtain ⟨config_eq, roundTrip_eq⟩ := Connection.roundTrip_create created
  obtain ⟨config_eq', roundTrip_eq'⟩ := Connection.roundTrip_create created'
  have opened_eq := Connection.roundTrip_openActive asked
  intro side granularity_le
  cases side with
  | first =>
      simp only [fresh, opened_eq, config_eq, roundTrip_eq] at granularity_le ⊢
      exact .initial granularity_le
  | second =>
      simp only [fresh, Connection.listen, config_eq', roundTrip_eq'] at granularity_le ⊢
      exact .initial granularity_le

theorem now_le_of_step {network after : Network} {step : Step}
    (done : network.step step = .ok after) : network.now ≤ after.now := by
  cases step with
  | elapse time =>
      obtain rfl := Except.ok.inj done
      exact Nat.le_add_right _ _
  | act side move =>
      obtain ⟨station, -, rfl⟩ := exists_of_step_act done
      exact Nat.le_refl _

theorem now_le_of_run {network after : Network} {steps : List Step}
    (done : network.run steps = .ok after) : network.now ≤ after.now := by
  induction steps generalizing network with
  | nil =>
      obtain rfl := Except.ok.inj done
      exact Nat.le_refl _
  | cons step steps ih =>
      rw [run_cons] at done
      obtain ⟨middle, stepped, done⟩ := Fault.exists_of_bind_eq_ok done
      exact Nat.le_trans (now_le_of_step stepped) (ih done)

theorem estimatesWithin_step {network after : Network} {step : Step} {limit : Nat} {side : Side}
    (within : (network.station side).connection.roundTrip.Within limit)
    (representable : limit * 16 ≤ Duration.limit) (done : network.step step = .ok after)
    (now_le : network.now ≤ limit) : (after.station side).connection.roundTrip.Within limit := by
  cases step with
  | elapse time =>
      obtain rfl := Except.ok.inj done
      exact within
  | act actor move =>
      obtain ⟨station, acted, rfl⟩ := exists_of_step_act done
      rcases side.eq_or_eq_other actor with rfl | rfl
      · rw [station_setStation]
        exact Station.act_within within representable now_le acted
      · rwa [station_setStation_other]

/-- Along a run within a limit, the estimates stay within it. -/
theorem Coherent.estimatesWithin_run {network after : Network} {ledgers : Side → Ledger}
    {steps : List Step} {limit : Nat} (coherent : network.Coherent ledgers)
    (within : network.EstimatesWithin limit) (representable : limit * 16 ≤ Duration.limit)
    (done : network.run steps = .ok after) (short : after.Short) (now_le : after.now ≤ limit) :
    after.EstimatesWithin limit := by
  induction steps generalizing network ledgers with
  | nil =>
      obtain rfl := Except.ok.inj done
      exact within
  | cons step steps ih =>
      rw [run_cons] at done
      obtain ⟨middle, stepped, done⟩ := Fault.exists_of_bind_eq_ok done
      have middle_le := Nat.le_trans (now_le_of_run done) now_le
      have before_le := Nat.le_trans (now_le_of_step stepped) middle_le
      obtain ⟨ledgers', coherent', config_eq⟩ :=
        coherent.step ((short.of_run done).of_step stepped) stepped
      refine ih coherent' (fun side granularity_le => ?_) done
      rw [config_eq] at granularity_le
      exact estimatesWithin_step (within side granularity_le) representable stepped before_le

theorem Reachable.estimatesWithin {network : Network} (reachable : network.Reachable)
    (short : network.Short) {limit : Nat} (representable : limit * 16 ≤ Duration.limit)
    (now_le : network.now ≤ limit) : network.EstimatesWithin limit := by
  obtain ⟨opener, listener, openerIsn, listenerIsn, now, steps, opener_valid, listener_valid,
    done⟩ := reachable
  obtain ⟨origin, ledgers, started, coherent⟩ :=
    exists_coherent_start opener_valid listener_valid openerIsn listenerIsn now
  rw [play, started] at done
  exact coherent.estimatesWithin_run (estimatesWithin_start started limit) representable done short
    now_le

/-- Times and a clock granularity of at most `2 ^ 60` seconds, on which the estimates of one end
depend when segments arrive. -/
def Moderate (network : Network) (side : Side) (arrivals : List (Bytes × Nat)) : Prop :=
  network.now ≤ Duration.limit / 16 ∧
    (network.station side).connection.config.clockGranularity ≤ Duration.limit / 16 ∧
    ∀ arrival ∈ arrivals, arrival.2 ≤ Duration.limit / 16

/-- Segments that arrive within moderate times do not overflow the estimates. -/
theorem Reachable.receiveAll_ne_error {network : Network} (reachable : network.Reachable)
    (short : network.Short) {side : Side} {arrivals : List (Bytes × Nat)}
    (moderate : network.Moderate side arrivals) :
    (network.station side).connection.receiveAll arrivals ≠ .error .duration := by
  obtain ⟨now_le, granularity_le, times_le⟩ := moderate
  have representable : Duration.limit / 16 * 16 ≤ Duration.limit := Nat.div_mul_le_self _ _
  have within := reachable.estimatesWithin short representable now_le side granularity_le
  exact (Connection.receiveAll_timely within representable times_le).1

end Network
end ReliableTransport
