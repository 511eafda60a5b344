import ReliableTransport.Proofs.Connection.Estimates
import ReliableTransport.Proofs.Connection.Reception

/-!
# Connections at moderate times

As long as all times are moderate, what is outstanding was sent at moderate times and the timeout is
moderate, so that a clock can show the deadline.  A resend can be counted unless the deadline expired
about as often as 32 bits can count.
-/

namespace ReliableTransport

open Fault

/-- A moderate length of time is at most `2 ^ 60` seconds. -/
def moderate : Nat := Duration.limit / 16

theorem moderate_mul_le : moderate * 16 ≤ Duration.limit :=
  Nat.div_mul_le_self _ _

example : moderate = 2 ^ 60 * Duration.second := by decide

namespace Outstanding

variable {now : Nat} {ack : SeqNum}

/-- A resent segment was sent just now, once more and with the acknowledgment number. -/
theorem resend_eq {segment resent : Outstanding} (done : segment.resend now ack = .ok resent) :
    resent.sentAt = now ∧ resent.retries = segment.retries + 1 ∧
      Segment.patchAck segment.raw ack = .ok resent.raw := by
  obtain ⟨retries, counted, done⟩ := exists_of_bind_eq_ok done
  obtain ⟨raw, patched, done⟩ := exists_of_bind_eq_ok done
  obtain rfl := Except.ok.inj done
  rw [countWord] at counted
  split at counted
  · exact ⟨rfl, (Except.ok.inj counted).symm, patched⟩
  · cases counted

theorem exists_of_mem_resent {segments resent : List Outstanding}
    (done : segments.mapM (·.resend now ack) = .ok resent) {again : Outstanding}
    (mem : again ∈ resent) : ∃ segment ∈ segments, segment.resend now ack = .ok again := by
  induction segments generalizing resent with
  | nil =>
      obtain rfl := Except.ok.inj done
      cases mem
  | cons segment segments ih =>
      rw [List.mapM_cons] at done
      obtain ⟨first, sent, done⟩ := exists_of_bind_eq_ok done
      obtain ⟨rest, others, done⟩ := exists_of_bind_eq_ok done
      obtain rfl := Except.ok.inj done
      rcases List.mem_cons.mp mem with rfl | mem
      · exact ⟨segment, List.mem_cons_self, sent⟩
      · obtain ⟨earlier, earlier_mem, resent⟩ := ih others mem
        exact ⟨earlier, List.mem_cons_of_mem _ earlier_mem, resent⟩

end Outstanding

/-- The estimates are moderate, and what is outstanding was sent at moderate times and resent at
most a number of times. -/
structure Calm (count : Nat) (flight : Flight) (estimate : RoundTrip) : Prop where
  /-- The estimates are moderate. -/
  within : estimate.Within moderate
  /-- So is the timeout. -/
  paced : estimate.Paced moderate
  /-- So are the times of sending and the numbers of resends. -/
  outstanding : ∀ segment ∈ flight.segments, segment.sentAt ≤ moderate ∧ segment.retries ≤ count

namespace Calm

variable {count now : Nat} {flight : Flight} {estimate : RoundTrip}

theorem mono (calm : Calm count flight estimate) {later : Nat} (count_le : count ≤ later) :
    Calm later flight estimate :=
  { calm with
    outstanding := fun segment mem =>
      (calm.outstanding segment mem).imp_right fun retries_le => retries_le.trans count_le }

/-- Sending and acknowledging at moderate times keep a connection calm. -/
theorem lasting (now_le : now ≤ moderate) : Lasting now (Calm count) where
  push {flight after estimate raw seq length} calm pushed := by
    refine ⟨calm.within, calm.paced, fun segment mem => ?_⟩
    rw [Flight.push] at pushed
    split at pushed
    · cases pushed
    split at pushed
    · cases pushed
    obtain rfl := Except.ok.inj pushed
    rcases List.mem_append.mp mem with mem | mem
    · exact calm.outstanding segment mem
    · obtain rfl := List.mem_singleton.mp mem
      exact ⟨now_le, Nat.zero_le count⟩
  acknowledge {flight estimate} ack calm := by
    obtain ⟨timely, within⟩ : Timely (fun taken => taken.2.2.Within moderate)
        (flight.acknowledge ack now estimate) :=
      Flight.acknowledge_timely calm.within moderate_mul_le now_le ack
    refine ⟨timely, fun taken done => ?_⟩
    obtain ⟨observed, folded, rest⟩ := exists_of_bind_eq_ok done
    have within := within taken done
    split at rest
    · cases rest
    obtain rfl := Except.ok.inj rest
    refine ⟨within, calm.paced.foldlM_observe folded, fun segment mem => ?_⟩
    exact calm.outstanding segment ((List.dropWhile_sublist _).subset mem)
  clear calm := ⟨calm.within, calm.paced, fun _ mem => absurd mem (by simp [Flight.empty])⟩

theorem initial {config : Config} (valid : config.Valid)
    (granularity_le : config.clockGranularity ≤ moderate)
    (maxTimeout_le : config.maxTimeout ≤ moderate) (count : Nat) :
    Calm count Flight.empty (.initial config) :=
  ⟨.initial granularity_le, .initial valid maxTimeout_le,
    fun _ mem => absurd mem (by simp [Flight.empty])⟩

theorem exists_alarm (calm : Calm count flight estimate) :
    ∃ alarm, flight.alarm estimate.timeout = .ok alarm := by
  rw [Flight.alarm]
  cases expires : flight.deadline? estimate.timeout with
  | none => exact ⟨none, rfl⟩
  | some deadline =>
      obtain ⟨sentAt, oldest, rfl⟩ := Option.map_eq_some_iff.mp expires
      obtain ⟨segment, mem, rfl⟩ := List.mem_map.mp (List.min?_mem oldest)
      have sentAt_le := (calm.outstanding segment mem).1
      have timeout_le := calm.paced.timeout_le
      have representable : moderate + moderate < Time.limit := by decide
      rw [Option.mapM_some, Time.checked, if_pos (by omega)]
      exact ⟨_, rfl⟩

end Calm

namespace Connection

variable {connection after : Connection} {background : Background} {ledger : Ledger}
  {settled count now : Nat}

theorem calm_create {config : Config} {isn : SeqNum} (valid : config.Valid)
    (granularity_le : config.clockGranularity ≤ moderate)
    (maxTimeout_le : config.maxTimeout ≤ moderate)
    (created : Connection.create config isn = .ok connection) (count : Nat) :
    connection.Has (Calm count) := by
  obtain ⟨window, -, rfl⟩ := eq_of_create created
  exact Calm.initial valid granularity_le maxTimeout_le count

/-- Whatever arrives at a moderate time is no fault. -/
theorem Sound.exists_receive (sound : connection.Sound background ledger settled)
    (calm : connection.Has (Calm count)) (now_le : now ≤ moderate) {raw : Bytes}
    (length_lt : raw.length < UInt32.size) :
    ∃ after, connection.receive raw now = .ok after ∧ after.Has (Calm count) := by
  have received := sound.receive raw now
  obtain ⟨timely, calm'⟩ := receive_timely (Calm.lasting now_le) calm raw
  cases outcome : connection.receive raw now with
  | ok after => exact ⟨after, rfl, calm' after outcome⟩
  | error fault =>
      rcases received.of_error outcome with rfl | ⟨-, large⟩
      · exact absurd outcome timely
      · omega

theorem Sound.exists_expire (sound : connection.Sound background ledger settled)
    (calm : connection.Has (Calm count)) (now : Nat) (count_lt : count + 1 < UInt32.size) :
    ∃ result after, connection.expire now = .ok (result, after) := by
  have expired := sound.expire now
  cases outcome : connection.expire now with
  | ok taken => exact ⟨taken.1, taken.2, rfl⟩
  | error fault =>
      rcases expired.of_error outcome with ⟨-, large⟩ | ⟨-, segment, mem, large⟩
      · have timeout_le := calm.paced.timeout_le
        have representable : moderate * 2 < Duration.limit := by decide
        omega
      · have retries_le := (calm.outstanding segment mem).2
        omega

theorem calm_expire (calm : connection.Has (Calm count)) (now_le : now ≤ moderate)
    {result : Except Failure Unit} (done : connection.expire now = .ok (result, after)) :
    after.Has (Calm (count + 1)) := by
  refine ⟨expire_within calm.within done, ?_, ?_⟩
  · rcases roundTrip_expire done with same | doubled
    · rw [same]
      exact calm.paced
    · exact calm.paced.backOff doubled
  · rcases expire_cases done with ⟨-, rfl, -⟩ | ⟨-, rfl⟩ | ⟨segments, roundTrip, resent, -, rfl⟩
    · exact (calm.mono (Nat.le_succ count)).outstanding
    · exact fun _ mem => absurd mem (by simp [abort, Flight.empty])
    · intro segment mem
      obtain ⟨earlier, earlier_mem, again⟩ := Outstanding.exists_of_mem_resent resent mem
      obtain ⟨sentAt_eq, retries_eq, -⟩ := Outstanding.resend_eq again
      have retries_le := (calm.outstanding earlier earlier_mem).2
      rw [sentAt_eq, retries_eq]
      exact ⟨now_le, Nat.succ_le_succ retries_le⟩

end Connection
end ReliableTransport
