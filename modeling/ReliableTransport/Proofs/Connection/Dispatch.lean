import ReliableTransport.Proofs.Connection.Content
import ReliableTransport.Proofs.Connection.Replies

/-!
# What an operation puts on the wire

An operation puts one new segment on the wire that is outstanding from then on, or everything
outstanding once more.  Otherwise it answers by an acknowledgment at most, and what is outstanding
becomes less from its front, or all of it is dropped.
-/

namespace ReliableTransport

open Fault

theorem Flight.isSuffix_of_acknowledge {flight after : Flight} {ack : SeqNum} {now removed : Nat}
    {estimate measured : RoundTrip}
    (done : flight.acknowledge ack now estimate = .ok (removed, after, measured)) :
    after.segments <:+ flight.segments ∧
      ∃ samples : List Nat, samples.foldlM RoundTrip.observe estimate = .ok measured := by
  obtain ⟨result, folded, done⟩ := exists_of_bind_eq_ok done
  split at done
  · cases done
  · cases done
    exact ⟨List.dropWhile_suffix _, _, folded⟩

namespace Connection

variable {connection middle after : Connection} {segment : Segment} {now : Nat}

/-- Nothing new is outstanding. -/
structure Drains (before after : Connection) : Prop where
  /-- The next position stays. -/
  sendNext_eq : after.sendNext = before.sendNext
  /-- Segments are only removed from the front, if not all of them. -/
  isSuffix : after.flight.segments <:+ before.flight.segments
  /-- The estimates take samples at most. -/
  estimates : ∃ samples : List Nat,
    samples.foldlM RoundTrip.observe before.roundTrip = .ok after.roundTrip

namespace Drains

/-- The sending side is not concerned. -/
theorem of_eq (next_eq : after.sendNext = connection.sendNext)
    (flight_eq : after.flight = connection.flight)
    (estimate_eq : after.roundTrip = connection.roundTrip) : connection.Drains after :=
  ⟨next_eq, flight_eq ▸ List.suffix_refl _, [], estimate_eq ▸ rfl⟩

end Drains

/-- Nothing is sent, and what is outstanding is acknowledged at most. -/
structure Retires (before : Connection) (now : Nat) (after : Connection) : Prop where
  /-- The next position stays. -/
  sendNext_eq : after.sendNext = before.sendNext
  /-- Either nothing is acknowledged, or what an acknowledgment in between covers is removed and
  measured. -/
  progress :
    (after.sendUnacked = before.sendUnacked ∧ after.flight = before.flight ∧
      after.roundTrip = before.roundTrip) ∨
    (after.sendUnacked.After before.sendUnacked ∧ ¬ after.sendUnacked.After before.sendNext ∧
      ∃ removed, before.flight.acknowledge after.sendUnacked now before.roundTrip =
        .ok (removed, after.flight, after.roundTrip))

namespace Retires

/-- The sending side is not concerned. -/
theorem refl (connection : Connection) (now : Nat) : connection.Retires now connection :=
  ⟨rfl, Or.inl ⟨rfl, rfl, rfl⟩⟩

theorem drains (retires : connection.Retires now after) : connection.Drains after := by
  rcases retires.progress with ⟨-, flight_eq, estimate_eq⟩ | ⟨-, -, removed, acknowledged⟩
  · exact .of_eq retires.sendNext_eq flight_eq estimate_eq
  · obtain ⟨isSuffix, measured⟩ := Flight.isSuffix_of_acknowledge acknowledged
    exact ⟨retires.sendNext_eq, isSuffix, measured⟩

/-- The content of a segment changes nothing on the sending side. -/
theorem takeContent (retires : connection.Retires now middle)
    (taken : middle.takeContent segment = .ok after) : connection.Retires now after := by
  obtain ⟨window, phase, events, outbox, rfl⟩ := eq_of_takeContent taken
  exact ⟨retires.sendNext_eq, retires.progress⟩

end Retires

/-- One segment is sent for the first time. -/
structure Launches (before : Connection) (now : Nat) (fresh : Outstanding) (after : Connection) :
    Prop where
  /-- It was never resent. -/
  retries_eq : fresh.retries = 0
  /-- It is sent now. -/
  sentAt_eq : fresh.sentAt = now
  /-- It starts at the next position. -/
  seq_eq : fresh.seq = before.sendNext
  /-- It is outstanding behind all others. -/
  segments_eq : after.flight.segments = before.flight.segments ++ [fresh]
  /-- It is queued. -/
  outbox_eq : after.outbox = before.outbox ++ [fresh.raw]
  /-- The estimates stay. -/
  estimate_eq : after.roundTrip = before.roundTrip

/-- What an operation puts on the wire. -/
inductive Dispatches (before : Connection) (now : Nat) (after : Connection) : Prop
  /-- At most an acknowledgment. -/
  | drains : before.Drains after →
      after.outbox = before.outbox ∨ after.outbox = before.outbox ++ [after.acknowledgment] →
      Dispatches before now after
  /-- One new segment. -/
  | launches (fresh : Outstanding) : before.Launches now fresh after → Dispatches before now after
  /-- Everything outstanding, as far as it was not resent too often. -/
  | resends : before.isExhausted = false →
      before.flight.segments.mapM (·.resend now before.recvNext) = .ok after.flight.segments →
      after.sendNext = before.sendNext →
      after.outbox = before.outbox ++ after.flight.segments.map (·.raw) →
      (if before.config.backoff then before.roundTrip.backOff else .ok before.roundTrip) =
        .ok after.roundTrip → Dispatches before now after

/-- What an operation does on the sending side, if it is no expired deadline. -/
inductive Serves (before : Connection) (now : Nat) (after : Connection) : Prop
  /-- Segments are acknowledged, and an acknowledgment is sent at most. -/
  | retires : before.Retires now after →
      after.outbox = before.outbox ∨ after.outbox = before.outbox ++ [after.acknowledgment] →
      Serves before now after
  /-- The connection ends, and nothing is outstanding any more. -/
  | drops : after = before.abort → Serves before now after
  /-- One new segment is sent. -/
  | launches (fresh : Outstanding) : before.Launches now fresh after →
      after.sendUnacked = before.sendUnacked → Serves before now after

/-- What an operation does on the sending side. -/
inductive Conducts (before : Connection) (now : Nat) (after : Connection) : Prop
  /-- Segments are acknowledged, and an acknowledgment is sent at most. -/
  | retires : before.Retires now after →
      after.outbox = before.outbox ∨ after.outbox = before.outbox ++ [after.acknowledgment] →
      Conducts before now after
  /-- The connection ends, and nothing is outstanding any more. -/
  | drops : after = before.abort → Conducts before now after
  /-- One new segment is sent. -/
  | launches (fresh : Outstanding) : before.Launches now fresh after →
      after.sendUnacked = before.sendUnacked → Conducts before now after
  /-- Everything outstanding is sent once more, as far as it was not resent too often. -/
  | resends : before.isExhausted = false →
      before.flight.segments.mapM (·.resend now before.recvNext) = .ok after.flight.segments →
      after.sendNext = before.sendNext → after.sendUnacked = before.sendUnacked →
      after.outbox = before.outbox ++ after.flight.segments.map (·.raw) →
      (if before.config.backoff then before.roundTrip.backOff else .ok before.roundTrip) =
        .ok after.roundTrip → Conducts before now after

theorem Serves.refl (connection : Connection) (now : Nat) : connection.Serves now connection :=
  .retires (.refl connection now) (Or.inl rfl)

theorem Serves.conducts (serves : connection.Serves now after) : connection.Conducts now after := by
  cases serves with
  | retires retires answer => exact .retires retires answer
  | drops aborted => exact .drops aborted
  | launches fresh launches unacked_eq => exact .launches fresh launches unacked_eq

/-- What is echoed at most and retires segments puts no more than an acknowledgment on the wire. -/
theorem Retires.serves (retires : connection.Retires now after)
    (echoes : connection.Echoes segment after) : connection.Serves now after :=
  .retires retires (echoes.imp_right And.right)

theorem Conducts.dispatches (conducts : connection.Conducts now after) :
    connection.Dispatches now after := by
  cases conducts with
  | retires retires answer => exact .drains retires.drains answer
  | drops aborted =>
      obtain rfl := aborted
      exact .drains ⟨rfl, List.nil_suffix, [], rfl⟩ (Or.inl rfl)
  | launches fresh launches _ => exact .launches fresh launches
  | resends unexhausted resent next_eq _ outbox_eq paced =>
      exact .resends unexhausted resent next_eq outbox_eq paced

/-- A segment that occupies sequence numbers is launched. -/
theorem transmit_launches {flags : Flags} {payload : Bytes}
    (occupies : flags.syn = true ∨ flags.fin = true ∨ payload ≠ [])
    (done : connection.transmit flags payload now = .ok after) :
    ∃ fresh, connection.Launches now fresh after ∧ after.sendUnacked = connection.sendUnacked := by
  obtain ⟨length, measured, done⟩ := exists_of_bind_eq_ok done
  have length_ne : length ≠ 0 := by
    rw [Flags.span] at measured
    split at measured
    · obtain rfl := Except.ok.inj measured
      rcases occupies with syn | fin | payload_ne
      · simp [syn]
      · simp [fin]
      · have payload_pos := List.length_pos_iff.mpr payload_ne
        simp only [UInt32.size]
        omega
    · cases measured
  rw [if_neg length_ne] at done
  obtain ⟨flight, pushed, done⟩ := exists_of_bind_eq_ok done
  obtain rfl := Except.ok.inj done
  rw [Flight.push, if_neg length_ne] at pushed
  split at pushed
  · cases pushed
  · obtain rfl := Except.ok.inj pushed
    exact ⟨_, ⟨rfl, rfl, rfl, rfl, rfl, rfl⟩, rfl⟩

theorem openActive_serves (opened : connection.openActive now = .ok after) :
    connection.Serves now after := by
  rw [openActive] at opened
  split at opened
  · obtain ⟨sent, transmitted, opened⟩ := exists_of_bind_eq_ok opened
    obtain ⟨fresh, launches, unacked_eq⟩ := transmit_launches (Or.inl rfl) transmitted
    obtain rfl := Except.ok.inj opened
    exact .launches fresh { launches with } unacked_eq
  · obtain rfl := Except.ok.inj opened
    exact .refl _ now

theorem sendChunk_serves {pending chunk : Bytes}
    (sent : connection.sendChunk pending now = .ok (chunk, after)) :
    connection.Serves now after := by
  rw [sendChunk] at sent
  split at sent
  · obtain ⟨-, rfl⟩ := Prod.mk.inj (Except.ok.inj sent)
    exact .refl _ now
  next some_left =>
    obtain ⟨transmitted, done, sent⟩ := exists_of_bind_eq_ok sent
    obtain ⟨-, rfl⟩ := Prod.mk.inj (Except.ok.inj sent)
    obtain ⟨fresh, launches, unacked_eq⟩ :=
      transmit_launches (Or.inr (Or.inr (by simpa using some_left))) done
    exact .launches fresh launches unacked_eq

theorem sendFin_serves {phase : Phase} {sent : Connection}
    (finished : connection.sendFin now = .ok sent) :
    connection.Serves now { sent with phase } := by
  obtain ⟨fresh, launches, unacked_eq⟩ := transmit_launches (Or.inr (Or.inl rfl)) finished
  exact .launches fresh ⟨launches.retries_eq, launches.sentAt_eq, launches.seq_eq,
    launches.segments_eq, launches.outbox_eq, launches.estimate_eq⟩ unacked_eq

theorem close_serves (closed : connection.close now = .ok after) :
    connection.Serves now after := by
  rw [close] at closed
  split at closed
  iterate 2
    · exact .drops (Except.ok.inj closed).symm
  iterate 3
    · obtain ⟨sent, finished, closed⟩ := exists_of_bind_eq_ok closed
      obtain rfl := Except.ok.inj closed
      exact sendFin_serves finished
  all_goals
    obtain rfl := Except.ok.inj closed
    exact .refl _ now

theorem expire_conducts {result : Except Failure Unit}
    (expired : connection.expire now = .ok (result, after)) : connection.Conducts now after := by
  rw [expire] at expired
  split at expired
  · obtain ⟨-, rfl⟩ := Prod.mk.inj (Except.ok.inj expired)
    exact (Serves.refl _ now).conducts
  split at expired
  · obtain ⟨-, rfl⟩ := Prod.mk.inj (Except.ok.inj expired)
    exact .drops rfl
  next unexhausted =>
    obtain ⟨again, resent, expired⟩ := exists_of_bind_eq_ok expired
    obtain ⟨-, rfl⟩ := Prod.mk.inj (Except.ok.inj expired)
    obtain ⟨flight, sent, resent⟩ := exists_of_bind_eq_ok resent
    obtain ⟨segments, each, flight_eq⟩ := exists_of_bind_eq_ok sent
    obtain rfl := Except.ok.inj flight_eq
    have unexhausted : connection.isExhausted = false := by simpa using unexhausted
    split at resent
    next backs =>
      obtain ⟨roundTrip, paced, resent⟩ := exists_of_bind_eq_ok resent
      obtain rfl := Except.ok.inj resent
      exact .resends unexhausted each rfl rfl rfl ((if_pos backs).trans paced)
    next constant =>
      obtain rfl := Except.ok.inj resent
      exact .resends unexhausted each rfl rfl rfl (if_neg constant)

theorem takeAck_retires {ack : SeqNum} {advertised : UInt16}
    (taken : connection.takeAck ack advertised now = .ok after) :
    connection.Retires now after := by
  rw [takeAck] at taken
  split at taken
  · obtain rfl := Except.ok.inj taken
    exact .refl _ now
  next sent =>
    simp only at taken
    split at taken
    next news =>
      obtain ⟨⟨removed, flight, roundTrip⟩, acknowledged, taken⟩ := exists_of_bind_eq_ok taken
      obtain rfl := Except.ok.inj taken
      simp only [noteFinAcked]
      split
      · exact ⟨rfl, Or.inr ⟨news, sent, removed, acknowledged⟩⟩
      · exact ⟨rfl, Or.inr ⟨news, sent, removed, acknowledged⟩⟩
    next =>
      obtain rfl := Except.ok.inj taken
      exact ⟨rfl, Or.inl ⟨rfl, rfl, rfl⟩⟩

theorem takeSynchronized_retires (taken : connection.takeSynchronized segment now = .ok after) :
    connection.Retires now after := by
  rcases takeSynchronized_cases taken with ⟨-, rfl | rfl⟩ | ⟨-, content | acknowledgment⟩
  · exact .refl _ now
  · exact ⟨rfl, Or.inl ⟨rfl, rfl, rfl⟩⟩
  · exact (Retires.refl _ now).takeContent content
  · obtain ⟨middle, acknowledged, ⟨-, rfl⟩ | ⟨-, content⟩⟩ := acknowledgment
    · exact takeAck_retires acknowledged
    · exact (takeAck_retires acknowledged).takeContent content

theorem takeSynSent_retires (taken : connection.takeSynSent segment now = .ok after) :
    connection.Retires now after := by
  rw [takeSynSent] at taken
  simp only at taken
  split at taken
  · obtain ⟨middle, acknowledged, taken⟩ := exists_of_bind_eq_ok taken
    obtain rfl := Except.ok.inj taken
    -- the peer's SYN concerns the receiving side alone
    have retires := takeAck_retires acknowledged
    exact ⟨retires.sendNext_eq, retires.progress⟩
  · obtain rfl := Except.ok.inj taken
    exact .refl _ now

theorem takeSynReceived_retires (taken : connection.takeSynReceived segment now = .ok after) :
    connection.Retires now after := by
  rw [takeSynReceived] at taken
  split at taken
  · have retires := takeSynchronized_retires taken
    exact ⟨retires.sendNext_eq, retires.progress⟩
  · obtain rfl := Except.ok.inj taken
    exact .refl _ now

theorem takeClosed_serves (taken : connection.takeClosed segment now = .ok after) :
    connection.Serves now after := by
  rw [takeClosed] at taken
  simp only at taken
  split at taken
  · obtain ⟨sent, transmitted, taken⟩ := exists_of_bind_eq_ok taken
    obtain ⟨fresh, launches, unacked_eq⟩ := transmit_launches (Or.inl rfl) transmitted
    obtain rfl := Except.ok.inj taken
    exact .launches fresh ⟨launches.retries_eq, launches.sentAt_eq, launches.seq_eq,
      launches.segments_eq, launches.outbox_eq, launches.estimate_eq⟩ unacked_eq
  · obtain rfl := Except.ok.inj taken
    exact .refl _ now

theorem receive_serves {raw : Bytes} (received : connection.receive raw now = .ok after) :
    connection.Serves now after := by
  rcases receive_cases received with rfl | ⟨segment, -, taken⟩
  · exact .refl _ now
  rw [takeSegment] at taken
  split at taken
  · exact takeClosed_serves taken
  · exact (takeSynSent_retires taken).serves (takeSynSent_echoes taken)
  · exact (takeSynReceived_retires taken).serves (takeSynReceived_echoes taken)
  all_goals first
    | exact (takeSynchronized_retires taken).serves (takeSynchronized_echoes taken)
    | (obtain rfl := Except.ok.inj taken; exact .refl _ now)

theorem apply_serves {operation : Operation} (other : operation ≠ .expire)
    (applied : connection.apply operation now = .ok after) : connection.Serves now after := by
  cases operation with
  | openActive => exact openActive_serves applied
  | listen =>
      obtain rfl := Except.ok.inj applied
      exact .retires ⟨rfl, Or.inl ⟨rfl, rfl, rfl⟩⟩ (Or.inl rfl)
  | send pending =>
      obtain ⟨⟨chunk, sent⟩, done, rfl⟩ := exists_of_map_eq_ok applied
      exact sendChunk_serves done
  | close => exact close_serves applied
  | abort => exact .drops (Except.ok.inj applied).symm
  | expire => exact absurd rfl other
  | receive raw => exact receive_serves applied

theorem apply_conducts {operation : Operation}
    (applied : connection.apply operation now = .ok after) : connection.Conducts now after := by
  by_cases expires : operation = .expire
  · obtain rfl := expires
    obtain ⟨⟨result, expired⟩, done, rfl⟩ := exists_of_map_eq_ok applied
    exact expire_conducts done
  · exact (apply_serves expires applied).conducts

/-- Whatever happens to a connection, this is what it puts on the wire. -/
theorem apply_dispatches {operation : Operation}
    (applied : connection.apply operation now = .ok after) : connection.Dispatches now after :=
  (apply_conducts applied).dispatches

/-- The timeout stays within the configured bound. -/
theorem Dispatches.obeys {config : Config} (dispatches : connection.Dispatches now after)
    (obeys : connection.roundTrip.Obeys config) : after.roundTrip.Obeys config := by
  cases dispatches with
  | drains drains _ =>
      obtain ⟨samples, measured⟩ := drains.estimates
      exact obeys.foldlM_observe measured
  | launches fresh launches => rwa [launches.estimate_eq]
  | resends _ _ _ _ paced =>
      split at paced
      · exact obeys.backOff paced
      · rwa [← Except.ok.inj paced]

theorem retries_lt_of_not_isExhausted {limit : Nat}
    (limited : connection.config.maxRetransmissions = some limit)
    (unexhausted : connection.isExhausted = false) {outstanding : Outstanding}
    (mem : outstanding ∈ connection.flight.segments) : outstanding.retries < limit := by
  have limit_eq : connection.retryLimit = some limit := by
    rw [retryLimit, limited, Option.getD_some]
    split <;> rfl
  by_contra beyond
  rw [isExhausted, limit_eq] at unexhausted
  cases most : connection.flight.maxRetries? with
  | none =>
      rw [Flight.maxRetries?, List.max?_eq_none_iff, List.map_eq_nil_iff] at most
      exact List.ne_nil_of_mem mem most
  | some retries =>
      have le := (List.max?_eq_some_iff.mp most).2 _ (List.mem_map_of_mem mem)
      rw [most] at unexhausted
      simp only [decide_eq_false_iff_not, Nat.not_le] at unexhausted
      omega

end Connection
end ReliableTransport
