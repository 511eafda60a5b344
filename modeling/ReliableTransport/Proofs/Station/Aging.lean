import ReliableTransport.Proofs.Station.Timeouts

/-!
# The ages of outstanding segments

Where time does not run back, segments are outstanding in the order in which they were last sent,
and those in front were resent at least as often as those behind them.  All of them were sent since
everything was last resent, because a resend spares none.  The oldest segment alone therefore
determines the deadline, and its resends are the ones that are limited.
-/

namespace ReliableTransport

open Fault

namespace Flight

/-- Outstanding segments are in the order of their ages at some time, given when everything was last
resent, if ever. -/
structure Aged (segments : List Outstanding) (resent : Option Nat) (latest : Nat) : Prop where
  /-- Nothing was resent later. -/
  resent_le : ∀ time, resent = some time → time ≤ latest
  /-- Nothing was sent later. -/
  sentAt_le : ∀ segment ∈ segments, segment.sentAt ≤ latest
  /-- Those in front were not sent later than those behind. -/
  older : segments.Pairwise fun front back => front.sentAt ≤ back.sentAt
  /-- Those in front were not resent less often than those behind. -/
  oftener : segments.Pairwise fun front back => back.retries ≤ front.retries
  /-- What was resent at all was resent by the last resend. -/
  renewed : ∀ segment ∈ segments, 0 < segment.retries → resent = some segment.sentAt
  /-- Nothing is older than the last resend. -/
  since : ∀ segment ∈ segments, ∀ time, resent = some time → time ≤ segment.sentAt

namespace Aged

variable {segments rest : List Outstanding} {resent : Option Nat} {latest now : Nat}

theorem nil (resent_le : ∀ time, resent = some time → time ≤ latest) : Aged [] resent latest :=
  ⟨resent_le, by simp, .nil, .nil, by simp, by simp⟩

theorem drain (aged : Aged segments resent latest) (isSuffix : rest <:+ segments)
    (forward : latest ≤ now) : Aged rest resent now where
  resent_le time last := (aged.resent_le time last).trans forward
  sentAt_le segment mem := (aged.sentAt_le segment (isSuffix.mem mem)).trans forward
  older := aged.older.sublist isSuffix.sublist
  oftener := aged.oftener.sublist isSuffix.sublist
  renewed segment mem := aged.renewed segment (isSuffix.mem mem)
  since segment mem := aged.since segment (isSuffix.mem mem)

/-- A segment that is sent for the first time is the youngest. -/
theorem launch (aged : Aged segments resent latest) (forward : latest ≤ now) {fresh : Outstanding}
    (never : fresh.retries = 0) (sentAt_eq : fresh.sentAt = now) :
    Aged (segments ++ [fresh]) resent now where
  resent_le time last := (aged.resent_le time last).trans forward
  sentAt_le := List.forall_mem_append.mpr
    ⟨fun segment mem => (aged.sentAt_le segment mem).trans forward,
      List.forall_mem_singleton.mpr sentAt_eq.le⟩
  older := List.pairwise_append.mpr
    ⟨aged.older, List.pairwise_singleton _ _, fun front mem => List.forall_mem_singleton.mpr
      (((aged.sentAt_le front mem).trans forward).trans sentAt_eq.ge)⟩
  oftener := List.pairwise_append.mpr
    ⟨aged.oftener, List.pairwise_singleton _ _, fun front _ => List.forall_mem_singleton.mpr
      (never.le.trans front.retries.zero_le)⟩
  renewed := List.forall_mem_append.mpr
    ⟨aged.renewed, List.forall_mem_singleton.mpr fun positive => absurd never positive.ne'⟩
  since := List.forall_mem_append.mpr
    ⟨aged.since, List.forall_mem_singleton.mpr fun time last =>
      ((aged.resent_le time last).trans forward).trans sentAt_eq.ge⟩

theorem again (aged : Aged segments resent latest) (now : Nat) (ack : SeqNum) :
    Aged (segments.map (·.again now ack)) (some now) now where
  resent_le _ last := (Option.some.inj last).ge
  sentAt_le := List.forall_mem_map.mpr fun _ _ => le_rfl
  older := List.pairwise_map.mpr (List.pairwise_of_forall fun _ _ => le_rfl)
  oftener := List.pairwise_map.mpr (aged.oftener.imp Nat.succ_le_succ)
  renewed := List.forall_mem_map.mpr fun _ _ _ => rfl
  since := List.forall_mem_map.mpr fun _ _ _ last => (Option.some.inj last).ge

theorem deadline?_eq {flight : Flight} (aged : Aged flight.segments resent latest) (timeout : Nat) :
    flight.deadline? timeout = flight.segments.head?.map (·.sentAt + timeout) := by
  have sorted :
      (flight.segments.map (·.sentAt)).Pairwise fun front back => min front back = front :=
    List.pairwise_map.mpr (aged.older.imp fun le => min_eq_left le)
  rw [deadline?, List.min?_eq_head? sorted, List.head?_map, Option.map_map]
  rfl

theorem maxRetries?_eq {flight : Flight} (aged : Aged flight.segments resent latest) :
    flight.maxRetries? = flight.segments.head?.map (·.retries) := by
  have sorted :
      (flight.segments.map (·.retries)).Pairwise fun front back => max front back = front :=
    List.pairwise_map.mpr (aged.oftener.imp fun le => max_eq_left le)
  rw [maxRetries?, List.max?_eq_head? sorted, List.head?_map]

end Aged

end Flight

open Flight

namespace Connection

variable {connection after : Connection} {resent : Option Nat} {latest now : Nat}

theorem Serves.aged (serves : connection.Serves now after)
    (aged : Aged connection.flight.segments resent latest) (forward : latest ≤ now) :
    Aged after.flight.segments resent now := by
  cases serves with
  | retires retires _ => exact aged.drain retires.drains.isSuffix forward
  | drops aborted =>
      obtain rfl := aborted
      exact aged.drain List.nil_suffix forward
  | launches fresh launches _ =>
      rw [launches.segments_eq]
      exact aged.launch forward launches.retries_eq launches.sentAt_eq

theorem expire_aged {result : Except Failure Unit}
    (expired : connection.expire now = .ok (result, after))
    (aged : Aged connection.flight.segments resent latest) (forward : latest ≤ now) :
    Aged after.flight.segments
      (if after.outbox ≠ connection.outbox then some now else resent) now := by
  rcases expire_cases expired with ⟨-, rfl, -⟩ | ⟨-, rfl⟩ | ⟨segments, roundTrip, resends, -, rfl⟩
  · rw [if_neg (not_not.mpr rfl)]
    exact aged.drain (List.suffix_refl _) forward
  · rw [abort, if_neg (not_not.mpr rfl)]
    exact aged.drain List.nil_suffix forward
  · obtain rfl := Outstanding.eq_of_mapM_resend resends
    -- a resend of nothing queues nothing, and does not count as one
    by_cases none_left : connection.flight.segments = []
    · rw [if_neg (by simp [none_left])]
      simp only [none_left, List.map_nil]
      exact aged.drain List.nil_suffix forward
    · rw [if_pos (by simpa using none_left)]
      exact aged.again now _

end Connection

namespace Station

/-- When everything outstanding was last resent: at the last expired deadline that queued anything,
or else at an earlier time that is given. -/
def lastResend (station : Station) (earlier : Option Nat) :
    List (Occurrence × Nat) → Option Nat
  | [] => earlier
  | (occurrence, now) :: history =>
      match station.undergo occurrence now with
      | .error _ => earlier
      | .ok after =>
          let resends := occurrence = .operate .expire ∧
            after.connection.outbox ≠ station.connection.outbox
          after.lastResend (if resends then some now else earlier) history

variable {config : Config} {isn : SeqNum} {station after : Station} {resent : Option Nat}
  {latest now : Nat}

theorem aged_undergo (aged : Aged station.connection.flight.segments resent latest)
    (forward : latest ≤ now) {occurrence : Occurrence}
    (done : station.undergo occurrence now = .ok after) :
    Aged after.connection.flight.segments
      (if occurrence = .operate .expire ∧ after.connection.outbox ≠ station.connection.outbox then
        some now else resent) now := by
  cases occurrence with
  | emit =>
      obtain rfl := Except.ok.inj done
      rw [if_neg (by simp), connection_emit]
      exact aged.drain (List.suffix_refl _) forward
  | hear =>
      obtain rfl := Except.ok.inj done
      rw [if_neg (by simp), connection_hear]
      exact aged.drain (List.suffix_refl _) forward
  | operate operation =>
      obtain ⟨connection, applied, rfl⟩ := exists_of_undergo_operate done
      by_cases expires : operation = .expire
      · obtain rfl := expires
        obtain ⟨⟨result, connection⟩, expired, rfl⟩ := exists_of_map_eq_ok applied
        simpa only [true_and] using Connection.expire_aged expired aged forward
      · rw [if_neg (by simp [expires])]
        exact (Connection.apply_serves expires applied).aged aged forward

/-- Through a life in which time does not run back, the outstanding segments are in the order of
their ages. -/
theorem aged_live (aged : Aged station.connection.flight.segments resent latest)
    {history : List (Occurrence × Nat)} (begins : ∀ step ∈ history, latest ≤ step.2)
    (forward : history.Pairwise fun earlier later => earlier.2 ≤ later.2)
    (lived : station.live history = .ok after) :
    ∃ last, Aged after.connection.flight.segments (station.lastResend resent history) last := by
  induction history generalizing station resent latest with
  | nil =>
      obtain rfl := Except.ok.inj lived
      exact ⟨latest, aged⟩
  | cons step history ih =>
      obtain ⟨occurrence, now⟩ := step
      obtain ⟨next, forward⟩ := List.pairwise_cons.mp forward
      rw [live_cons] at lived
      obtain ⟨middle, happened, lived⟩ := exists_of_bind_eq_ok lived
      rw [lastResend, happened]
      exact ih (aged_undergo aged (begins _ List.mem_cons_self) happened) next forward lived

theorem Arises.retries_le (arises : Arises config isn station) {limit : Nat}
    (limited : config.maxRetransmissions = some limit) {segment : Outstanding}
    (mem : segment ∈ station.connection.flight.segments) : segment.retries ≤ limit := by
  obtain ⟨ledger, settled, origins, base, -, tally⟩ := arises.tallied limited
  obtain ⟨index, found⟩ := List.mem_iff_getElem?.mp mem
  have copies := tally.count_eq index segment found
  have copies_le := tally.count_le (base + index)
  omega

/-- The outstanding segments of a connection are in the order of their age, where the last resend is
known if there was one. -/
structure AgeOrder (config : Config) (connection : Connection) (last : Option Nat) : Prop where
  /-- The older ones are in front. -/
  older : connection.flight.segments.Pairwise fun front back => front.sentAt ≤ back.sentAt
  /-- Those in front were resent at least as often. -/
  oftener : connection.flight.segments.Pairwise fun front back => back.retries ≤ front.retries
  /-- One that was resent was sent with the last resend. -/
  renewed : ∀ segment ∈ connection.flight.segments, 0 < segment.retries →
    last = some segment.sentAt
  /-- None was sent before the last resend. -/
  since : ∀ segment ∈ connection.flight.segments, ∀ time, last = some time → time ≤ segment.sentAt
  /-- The deadline is that of the one in front. -/
  deadline_eq : connection.deadline? =
    connection.flight.segments.head?.map (·.sentAt + connection.roundTrip.timeout)
  /-- The alarm is set to it, if a clock can show it. -/
  alarm_eq : connection.alarm =
    (connection.flight.segments.head?.map (·.sentAt + connection.roundTrip.timeout)).mapM Time.checked
  /-- None was resent more often than the one in front. -/
  most_eq : connection.flight.maxRetries? = connection.flight.segments.head?.map (·.retries)
  /-- None was resent more often than permitted. -/
  limited : ∀ limit, config.maxRetransmissions = some limit →
    ∀ segment ∈ connection.flight.segments, segment.retries ≤ limit

/-- As long as time does not go back, everything outstanding is in the order of its age. -/
theorem age_order {connection : Connection} {history : List (Occurrence × Nat)}
    (created : Connection.create config isn = .ok connection)
    (lived : live { connection } history = .ok station)
    (forward : history.Pairwise fun earlier later => earlier.2 ≤ later.2) :
    AgeOrder config station.connection (lastResend { connection } none history) := by
  have arises : Arises config isn station := ⟨connection, history, created, lived⟩
  have start : Aged connection.flight.segments none 0 := by
    obtain ⟨window, -, rfl⟩ := Connection.eq_of_create created
    exact .nil (by simp)
  obtain ⟨last, aged⟩ := aged_live start (fun _ _ => Nat.zero_le _) forward lived
  have deadline_eq := aged.deadline?_eq station.connection.roundTrip.timeout
  exact ⟨aged.older, aged.oftener, aged.renewed, aged.since, deadline_eq,
    congrArg (·.mapM Time.checked) deadline_eq, aged.maxRetries?_eq,
    fun limit limited segment mem => arises.retries_le limited mem⟩

/-- A segment behind one that was resent. -/
def resendsFirst : List (Occurrence × Nat) :=
  [(.operate .openActive, 0),
    (.operate (.receive ((Cargo.syn true).encode ⟨7⟩ ⟨0⟩ 4)), 16),
    (.operate (.send [1, 2]), 20), (.operate .expire, 70), (.operate (.send [3]), 80)]

/-- The deadline is that of the resent segment in front. -/
theorem age_order_resendsFirst :
    ∃ (connection : Connection) (station : Station),
      Connection.create impatient ⟨4294967295⟩ = .ok connection ∧
      live { connection } resendsFirst = .ok station ∧
      station.connection.flight.segments.map (fun segment => (segment.sentAt, segment.retries)) =
        [(70, 1), (80, 0)] ∧
      lastResend { connection } none resendsFirst = some 70 ∧
      station.connection.deadline? = some (70 + 2 * Duration.second) ∧
      station.connection.flight.maxRetries? = some 1 := by
  obtain ⟨connection, station, created, lived, ages, timeout_eq⟩ :
      ∃ connection station, Connection.create impatient ⟨4294967295⟩ = .ok connection ∧
        live { connection } resendsFirst = .ok station ∧
        station.connection.flight.segments.map (fun segment => (segment.sentAt, segment.retries)) =
          [(70, 1), (80, 0)] ∧ station.connection.roundTrip.timeout = 2 * Duration.second :=
    ⟨_, _, rfl, rfl, rfl, rfl⟩
  have order := age_order created lived (by decide)
  have deadline_eq := order.deadline_eq
  have most_eq := order.most_eq
  refine ⟨connection, station, created, lived, ages, ?_⟩
  cases segments_eq : station.connection.flight.segments with
  | nil => simp [segments_eq] at ages
  | cons front rest =>
      rw [segments_eq, List.map_cons] at ages
      obtain ⟨sentAt_eq, retries_eq⟩ := Prod.mk.inj (List.cons.inj ages).1
      rw [segments_eq, List.head?_cons, Option.map_some] at deadline_eq most_eq
      have last := order.renewed front (segments_eq ▸ List.mem_cons_self) (by omega)
      refine ⟨sentAt_eq ▸ last, ?_, ?_⟩
      · rw [deadline_eq, sentAt_eq, timeout_eq]
      · rw [most_eq, retries_eq]

end Station
end ReliableTransport
