import ReliableTransport.Proofs.Connection.Soundness
import ReliableTransport.Proofs.FlightOrder

/-!
# An expired deadline

An expired deadline has one of two consequences.  If some outstanding segment was resent as often as
permitted, the connection ends, without a failure if nothing but a final FIN was left.  Otherwise
everything outstanding is sent once more, and the timeout grows if it backs off.
-/

namespace ReliableTransport

open Fault Script

namespace Flight

variable {isn : SeqNum} {window : UInt16} {segments : List Outstanding} {script : List Cargo}
  {position : Nat}

theorem Carries.exists_covering (carries : Carries isn window position segments script)
    (near : extent script < UInt32.size) {offset : Nat} (inside : offset < extent script) :
    ∃ segment ∈ segments,
      (isn.advance (position + offset)).since segment.seq < segment.length := by
  induction carries generalizing offset with
  | nil => cases inside
  | @cons position segment segments cargo script head tail ih =>
      rw [extent_cons] at inside near
      simp only [UInt32.size] at near
      rcases Nat.lt_or_ge offset cargo.length with first | later
      · refine ⟨segment, List.mem_cons_self, ?_⟩
        rw [head.seq_eq, head.length_eq, SeqNum.since_advance isn (by omega) (by omega)]
        omega
      · obtain ⟨other, mem, covers⟩ :=
          ih (by simp only [UInt32.size]; omega)
            (show offset - cargo.length < extent script by omega)
        rw [Nat.add_assoc, Nat.add_sub_cancel' later] at covers
        exact ⟨other, List.mem_cons_of_mem segment mem, covers⟩

theorem maxRetries?_eq_some_iff {flight : Flight} {retries : Nat} :
    flight.maxRetries? = some retries ↔
      (∃ segment ∈ flight.segments, segment.retries = retries) ∧
        ∀ segment ∈ flight.segments, segment.retries ≤ retries := by
  rw [maxRetries?, List.max?_eq_some_iff, List.mem_map, List.forall_mem_map]

end Flight

namespace Connection

variable {connection : Connection} {background : Background} {ledger : Ledger} {settled : Nat}

/-- The peer's stream is complete, and nothing is unacknowledged but the own FIN. -/
def FinalFin (connection : Connection) : Prop :=
  (connection.phase = .lastAck ∨ connection.phase = .closing) ∧ connection.inFlight = 1

instance (connection : Connection) : Decidable connection.FinalFin :=
  inferInstanceAs (Decidable (_ ∧ _))

/-- Number of resends that are permitted: the configured one, or five of a final FIN alone. -/
def patience (connection : Connection) : Option Nat :=
  connection.config.maxRetransmissions.or (if connection.FinalFin then some 5 else none)

theorem patience_lt {limit : Nat}
    (word : ∀ limit, connection.config.maxRetransmissions = some limit → limit < UInt32.size)
    (limited : connection.patience = some limit) : limit < UInt32.size := by
  rw [patience] at limited
  cases configured : connection.config.maxRetransmissions with
  | some permitted =>
      rw [configured, Option.some_or] at limited
      obtain rfl := Option.some.inj limited
      exact word permitted configured
  | none =>
      rw [configured, Option.none_or] at limited
      split at limited
      · obtain rfl := Option.some.inj limited
        decide
      · cases limited

/-- The timeout after one more resend. -/
def nextTimeout (connection : Connection) : Nat :=
  if connection.config.backoff then
    min (connection.roundTrip.timeout * 2) connection.config.maxTimeout
  else connection.roundTrip.timeout

/-- The outstanding segments as they are sent once more. -/
def resent (connection : Connection) (now : Nat) : List Outstanding :=
  connection.flight.segments.map (·.again now connection.recvNext)

/-- The connection after everything outstanding was sent once more. -/
def renewed (connection : Connection) (now : Nat) : Connection :=
  { connection with
    flight := ⟨connection.resent now⟩
    roundTrip := { connection.roundTrip with timeout := connection.nextTimeout }
    outbox := connection.outbox ++ (connection.resent now).map (·.raw) }

theorem nextTimeout_le (obeys : connection.roundTrip.Obeys connection.config) :
    connection.nextTimeout ≤ connection.config.maxTimeout := by
  rw [nextTimeout]
  split
  · exact Nat.min_le_right _ _
  · exact obeys.timeout_le

theorem maxRetries?_renewed {retries : Nat}
    (most : connection.flight.maxRetries? = some retries) (now : Nat) :
    (connection.renewed now).flight.maxRetries? = some (retries + 1) := by
  obtain ⟨⟨oldest, mem, oldest_eq⟩, le⟩ := Flight.maxRetries?_eq_some_iff.mp most
  refine Flight.maxRetries?_eq_some_iff.mpr ⟨⟨_, List.mem_map_of_mem mem, ?_⟩, ?_⟩
  · rw [← oldest_eq]
    rfl
  · refine List.forall_mem_map.mpr fun segment mem => ?_
    exact Nat.succ_le_succ (le segment mem)

theorem deadline?_renewed (outstanding : connection.flight.segments ≠ []) (now : Nat) :
    (connection.renewed now).deadline? = some (now + connection.nextTimeout) := by
  have oldest_now : ((connection.resent now).map (·.sentAt)).min? = some now := by
    obtain ⟨segment, mem⟩ := List.exists_mem_of_ne_nil _ outstanding
    refine List.min?_eq_some_iff.mpr ⟨?_, ?_⟩
    · exact List.mem_map.mpr ⟨_, List.mem_map_of_mem mem, rfl⟩
    · simp [resent, Outstanding.again]
  change ((connection.resent now).map (·.sentAt)).min?.map (· + connection.nextTimeout) = _
  rw [oldest_now]
  rfl

namespace Sound

theorem onlyFinalFin_iff (sound : connection.Sound background ledger settled) :
    connection.onlyFinalFin = true ↔ connection.FinalFin := by
  have extent_le := sound.writes.extent_le
  have settled_le := sound.writes.settled_le
  simp only [onlyFinalFin, FinalFin, Bool.and_eq_true, Bool.or_eq_true, decide_eq_true_eq]
  refine and_congr_right fun waiting => ?_
  have written : .fin ∈ ledger.script := by
    have admits := sound.admits
    rcases waiting with waiting | waiting <;> rw [waiting] at admits <;> exact admits.1
  have extent_pos := sound.writes.valid.extent_pos (List.prefix_refl _) (List.ne_nil_of_mem written)
  rw [sound.writes.finSeq_eq, if_pos written, sound.writes.unacked_eq, Option.some_inj,
    SeqNum.advance_inj connection.isn (by omega) (by omega), sound.writes.inFlight_eq]
  omega

theorem retryLimit_eq (sound : connection.Sound background ledger settled) :
    connection.retryLimit = connection.patience := by
  rw [retryLimit, patience]
  by_cases final : connection.FinalFin
  · rw [if_pos (sound.onlyFinalFin_iff.mpr final), if_pos final]
    cases connection.config.maxRetransmissions <;> rfl
  · rw [if_neg (mt sound.onlyFinalFin_iff.mp final), if_neg final, Option.or_none]

theorem exists_encode (sound : connection.Sound background ledger settled)
    (running : connection.phase ≠ .terminated) {segment : Outstanding}
    (mem : segment ∈ connection.flight.segments) (now : Nat) (ack : SeqNum) :
    ∃ header payload, segment.raw = Segment.encode header payload ∧ header.seq = segment.seq ∧
      (segment.again now ack).raw = Segment.encode { header with ack } payload := by
  obtain ⟨rest, -, carries⟩ := sound.writes.carries running
  obtain ⟨start, cargo, -, holds⟩ := carries.exists_of_mem mem
  obtain ⟨old, raw_eq⟩ := holds.raw_eq
  exact ⟨_, _, raw_eq, holds.seq_eq.symm, holds.raw_again now ack⟩

/-- What is outstanding covers every position in flight. -/
theorem exists_covering (sound : connection.Sound background ledger settled)
    (running : connection.phase ≠ .terminated) {offset : Nat}
    (inside : offset < connection.inFlight) :
    ∃ segment ∈ connection.flight.segments,
      (connection.sendUnacked.advance offset).since segment.seq < segment.length := by
  obtain ⟨rest, script_eq, carries⟩ := sound.writes.carries running
  have acked_le := sound.writes.acked_le
  have near := sound.writes.extent_rest_lt script_eq
  rw [sound.writes.inFlight_eq, script_eq, extent_append] at inside
  obtain ⟨segment, mem, covers⟩ := carries.exists_covering (by simp only [UInt32.size]; omega)
    (show settled - extent ledger.acked + offset < extent rest by omega)
  refine ⟨segment, mem, ?_⟩
  rw [sound.writes.unacked_eq, SeqNum.advance_advance]
  rwa [← Nat.add_assoc, Nat.add_sub_cancel' acked_le] at covers

/-- Everything outstanding is sent once more, if this can be counted. -/
theorem resend_eq (sound : connection.Sound background ledger settled)
    (running : connection.phase ≠ .terminated)
    (obeys : connection.roundTrip.Obeys connection.config)
    (doubles : connection.config.maxTimeout * 2 < Duration.limit) {retries : Nat}
    (most : connection.flight.maxRetries? = some retries) (now : Nat) :
    connection.resend now =
      if retries + 1 < UInt32.size then .ok (connection.renewed now) else .error .count := by
  obtain ⟨rest, -, carries⟩ := sound.writes.carries running
  obtain ⟨⟨oldest, mem, oldest_eq⟩, le⟩ := Flight.maxRetries?_eq_some_iff.mp most
  rw [Connection.resend, Flight.resend]
  by_cases counted : retries + 1 < UInt32.size
  · rw [if_pos counted, carries.mapM_resend_eq (fun segment mem => by
      have segment_le := le segment mem
      omega)]
    simp only [renewed, nextTimeout, resent]
    cases connection.config.backoff with
    | true => simp [obeys.backOff_eq doubles, bind, Except.bind, pure, Except.pure]
    | false => simp [bind, Except.bind, pure, Except.pure]
  · rw [if_neg counted]
    cases done : connection.flight.segments.mapM (·.resend now connection.recvNext) with
    | error fault =>
        rw [(carries.mapM_resend_error done).1]
        rfl
    | ok segments =>
        have each : Ensures (fun _ => True)
            (List.Forall₂ (fun segment (_ : Outstanding) => segment.retries + 1 < UInt32.size)
              connection.flight.segments)
            (connection.flight.segments.mapM (·.resend now connection.recvNext)) :=
          Ensures.mapM fun segment _ =>
            (segment.resend_ensures now connection.recvNext).mono (fun _ _ => trivial)
              fun _ holds => holds.1
        obtain ⟨again, -, small⟩ := exists_of_mem_forall₂ (each.of_ok done).flip mem
        have small : oldest.retries + 1 < UInt32.size := small
        omega

/-- An expired deadline gives up or sends everything outstanding once more, if this can be
counted. -/
theorem expire_eq (sound : connection.Sound background ledger settled)
    (running : connection.phase ≠ .terminated)
    (obeys : connection.roundTrip.Obeys connection.config)
    (doubles : connection.config.maxTimeout * 2 < Duration.limit)
    (word : ∀ limit, connection.config.maxRetransmissions = some limit → limit < UInt32.size)
    {retries : Nat} (most : connection.flight.maxRetries? = some retries) (now : Nat) :
    connection.expire now =
      if ∃ limit, connection.patience = some limit ∧ limit ≤ retries then
        .ok (if connection.FinalFin then .ok () else .error .timedOut, connection.abort)
      else if connection.patience = none ∧ UInt32.size ≤ retries + 1 then .error .count
      else .ok (.ok (), connection.renewed now) := by
  have some_left : connection.flight.isEmpty = false := by
    obtain ⟨⟨oldest, mem, -⟩, -⟩ := Flight.maxRetries?_eq_some_iff.mp most
    rw [Flight.isEmpty, List.isEmpty_eq_false_iff]
    exact List.ne_nil_of_mem mem
  have exhausted_iff : connection.isExhausted = true ↔
      ∃ limit, connection.patience = some limit ∧ limit ≤ retries := by
    rw [isExhausted, sound.retryLimit_eq, most]
    cases connection.patience with
    | none => simp
    | some limit => simp
  have uncounted_iff (reached : ¬ ∃ limit, connection.patience = some limit ∧ limit ≤ retries) :
      connection.patience = none ∧ UInt32.size ≤ retries + 1 ↔ ¬ retries + 1 < UInt32.size := by
    refine ⟨fun unlimited => Nat.not_lt.mpr unlimited.2,
      fun uncounted => ⟨?_, Nat.le_of_not_lt uncounted⟩⟩
    cases limited : connection.patience with
    | none => rfl
    | some limit =>
        have limit_lt := patience_lt word limited
        have beyond : ¬ limit ≤ retries := fun le => reached ⟨limit, limited, le⟩
        omega
  rw [Connection.expire, some_left, if_neg Bool.false_ne_true]
  by_cases exhausted : connection.isExhausted = true
  · rw [if_pos exhausted, if_pos (exhausted_iff.mp exhausted)]
    simp only [sound.onlyFinalFin_iff]
    rfl
  · have reached := mt exhausted_iff.mpr exhausted
    rw [if_neg exhausted, if_neg reached, sound.resend_eq running obeys doubles most]
    by_cases counted : retries + 1 < UInt32.size
    · rw [if_pos counted, if_neg fun unlimited => (uncounted_iff reached).mp unlimited counted]
      rfl
    · rw [if_neg counted, if_pos ((uncounted_iff reached).mpr counted)]
      rfl

end Sound
end Connection
end ReliableTransport
