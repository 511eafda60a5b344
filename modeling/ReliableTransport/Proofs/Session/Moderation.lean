import ReliableTransport.Proofs.Connection.Moderation
import ReliableTransport.Proofs.Session.Preservation

/-!
# Sessions at moderate times

As long as all times are moderate and not too much happens, no overflow stops an endpoint.
-/

namespace ReliableTransport

open Fault

theorem Connection.flushWithin_timely {now : Nat} {holds : Flight → RoundTrip → Prop}
    (lasting : Lasting now holds) {connection : Connection} (held : connection.Has holds)
    (rounds : Nat) (pending : Bytes) :
    Timely (fun taken => taken.2.2.Has holds) (connection.flushWithin rounds pending now) := by
  induction rounds generalizing connection pending with
  | zero => exact .ok held
  | succ rounds ih =>
      rw [flushWithin]
      refine (sendChunk_timely lasting held pending).bind ?_
      rintro ⟨chunk, after⟩ held
      simp only
      split
      · exact .ok held
      · exact (ih held _).bind fun _ held => .ok held

namespace Endpoint

/-- No overflow stopped an endpoint, and its connection is calm. -/
structure Temperate (count : Nat) (endpoint : Endpoint) : Prop where
  /-- The connection is calm. -/
  calm : endpoint.connection.Has (Calm count)
  /-- No fault happened. -/
  unharmed : ∀ fault, endpoint.activity ≠ .crashed fault

variable {endpoint : Endpoint} {station : Station} {count now : Nat} {incoming : List Bytes}
  {config : Config} {isn : SeqNum}

theorem segmentPending_timely {holds : Flight → RoundTrip → Prop} (lasting : Lasting now holds)
    (held : endpoint.connection.Has holds) :
    Timely (·.connection.Has holds) (endpoint.segmentPending now) := by
  refine (Connection.flushWithin_timely lasting held _ _).bind ?_
  rintro ⟨chunks, pending, connection⟩ held
  simp only
  split
  · refine (Connection.close_timely lasting held).bind fun connection held => .ok ?_
    exact held
  · exact .ok held

namespace Temperate

theorem mono (temperate : endpoint.Temperate count) {later : Nat} (count_le : count ≤ later) :
    endpoint.Temperate later :=
  ⟨temperate.calm.mono count_le, temperate.unharmed⟩

theorem fail (temperate : endpoint.Temperate count) (failure : Failure) :
    (endpoint.fail failure).Temperate count := by
  have lasting : Lasting 0 (Calm count) := Calm.lasting (Nat.zero_le _)
  cases known : endpoint.opened with
  | none =>
      simp only [Endpoint.fail, known]
      exact ⟨lasting.clear temperate.calm, by simp⟩
  | some result =>
      simp only [Endpoint.fail, known]
      exact ⟨lasting.clear temperate.calm, by simp⟩

theorem rest (temperate : endpoint.Temperate count) : endpoint.rest.Temperate count := by
  obtain ⟨alarm, shown⟩ := temperate.calm.exists_alarm
  rw [Endpoint.rest]
  split
  · exact ⟨temperate.calm, by simp⟩
  · rw [Connection.alarm, shown]
    exact temperate

theorem handOver (temperate : endpoint.Temperate count) (failsAfter : Option Nat) :
    (endpoint.handOver failsAfter).Temperate count := by
  have handed : Temperate count
      ({ endpoint with
          connection := { endpoint.connection with outbox := [] }
          sent := endpoint.sent ++ endpoint.connection.outbox
          }.forwardEvents.notifyOpener.rest) := by
    refine rest ?_
    obtain ⟨opened, notify_eq, -⟩ := notifyOpener_eq
      { endpoint with
        connection := { endpoint.connection with outbox := [] }
        sent := endpoint.sent ++ endpoint.connection.outbox }.forwardEvents
    rw [notify_eq]
    exact ⟨temperate.calm, temperate.unharmed⟩
  cases failsAfter with
  | none => exact handed
  | some limit =>
      rw [Endpoint.handOver]
      split
      · refine fail ?_ _
        exact ⟨temperate.calm, temperate.unharmed⟩
      · exact handed

/-- A turn at a moderate time is no fault. -/
theorem turn (temperate : endpoint.Temperate count) (accords : endpoint.Accords station)
    (arises : Station.Arises config isn station) (now_le : now ≤ moderate)
    (failsAfter : Option Nat) : (endpoint.turn now failsAfter).Temperate count := by
  obtain ⟨middle, between, segmented, -, accords', -⟩ := accords.segmentPending arises [] now
  have calm := (segmentPending_timely (Calm.lasting now_le) temperate.calm).2 middle segmented
  have unharmed (fault : Fault) : middle.activity ≠ .crashed fault := by
    rw [accords'.running]
    exact Activity.noConfusion
  rw [Endpoint.turn, segmented]
  exact handOver ⟨calm, unharmed⟩ failsAfter

/-- What follows a wakeup at moderate times is no fault, unless the deadline expired too often. -/
theorem respond (temperate : endpoint.Temperate count) (mirrors : endpoint.Mirrors station)
    (running : endpoint.activity = .running) (arises : Station.Arises config isn station)
    (wakeup : Wakeup)
    (arrives : ∀ raw, wakeup = .received raw → raw ∈ incoming ∧ raw.length ≤ receiveLimit)
    (now_le : now ≤ moderate) {later : Nat} (later_le : later ≤ moderate)
    (count_lt : count + 1 < UInt32.size) (failsAfter : Option Nat) :
    (endpoint.respond wakeup now later failsAfter).Temperate (count + 1) := by
  have accords := mirrors.accords running
  obtain ⟨ledger, settled, sound⟩ := arises.sound
  have calm := temperate.calm
  have settles {after : Endpoint} (temperate : after.Temperate count) :
      after.Temperate (count + 1) := temperate.mono (Nat.le_succ count)
  rw [accords.connection_eq] at calm
  cases wakeup with
  | written data =>
      have taken : (endpoint.taking (.written data)).Temperate count :=
        ⟨temperate.calm, temperate.unharmed⟩
      exact settles (taken.turn (accords.taking _) arises later_le failsAfter)
  | writerClosed =>
      have taken : (endpoint.taking .writerClosed).Temperate count :=
        ⟨temperate.calm, temperate.unharmed⟩
      exact settles (taken.turn (accords.taking _) arises later_le failsAfter)
  | receiveError => exact settles (temperate.turn accords arises later_le failsAfter)
  | received raw =>
      obtain ⟨sent, short⟩ := arrives raw rfl
      obtain ⟨after, received, calm'⟩ :=
        sound.connection.exists_receive calm now_le (Nat.lt_of_le_of_lt short (by decide))
      obtain ⟨becomes, accords'⟩ := mirrors.accords_receive running arises sent received
      have taken : Temperate count { endpoint with connection := after } :=
        ⟨calm', temperate.unharmed⟩
      rw [Endpoint.respond, List.take_of_length_le short, accords.connection_eq, received]
      exact settles (taken.turn accords' (becomes.arises arises) later_le failsAfter)
  | expired =>
      obtain ⟨result, after, expired⟩ := sound.connection.exists_expire calm now count_lt
      have taken : Temperate (count + 1) { endpoint with connection := after } :=
        ⟨Connection.calm_expire calm now_le expired, temperate.unharmed⟩
      rw [Endpoint.respond, accords.connection_eq, expired]
      cases result with
      | ok _ =>
          obtain ⟨becomes, accords'⟩ := mirrors.accords_expire running arises [] expired
          exact taken.turn accords' (becomes.arises arises) later_le failsAfter
      | error failure => exact taken.fail failure

theorem abandon (temperate : endpoint.Temperate count) : endpoint.abandon.Temperate count := by
  rcases endpoint.abandon_cases with same | ⟨-, gone⟩
  · rwa [same]
  · rw [gone]
    exact ⟨temperate.calm, by simp⟩

/-- An endpoint starts without a fault at a moderate time. -/
theorem start {opening : Opening} (valid : opening.config.Valid)
    (granularity_le : opening.config.clockGranularity ≤ moderate)
    (maxTimeout_le : opening.config.maxTimeout ≤ moderate) (now_le : now ≤ moderate)
    {later : Nat} (later_le : later ≤ moderate) {connection : Connection}
    (initiated : Stream.initiate opening.role opening.config opening.isn now = .ok connection)
    (count : Nat) (failsAfter : Option Nat) :
    (Endpoint.start connection later failsAfter).Temperate count := by
  obtain ⟨arises, goes, -⟩ := Stream.arises_of_initiate initiated
  obtain ⟨created, created_eq, rest⟩ := exists_of_bind_eq_ok initiated
  have accords : Accords { connection } { connection } :=
    ⟨rfl, rfl, rfl, rfl, fun past => absurd past goes⟩
  have fresh : created.Has (Calm count) :=
    Connection.calm_create valid granularity_le maxTimeout_le created_eq count
  have calm : connection.Has (Calm count) := by
    cases role_eq : opening.role with
    | passive =>
        rw [role_eq] at rest
        obtain rfl := Except.ok.inj rest
        exact fresh
    | active =>
        rw [role_eq] at rest
        exact (Connection.openActive_timely (Calm.lasting now_le) fresh).2 connection rest
  exact Temperate.turn ⟨calm, by simp⟩ accords arises later_le failsAfter

end Temperate
end Endpoint

namespace Session

variable (session : Session) (side : Side)

@[simp]
theorem now_release (hold : Hold) : (session.release side hold).now = session.now := by
  rw [release]
  split
  · exact now_setSeat _ _ _
  · rfl

theorem now_le_turn (trigger : Trigger) (pause : Nat) (failsAfter : Option Nat) :
    session.now ≤ (session.turn side trigger pause failsAfter).now := by
  rw [Session.turn]
  split
  · exact Nat.le_refl _
  cases trigger with
  | write | timer =>
      simp only [now_putStream]
      exact Nat.le_add_right _ _
  | segment =>
      simp only
      split
      · exact Nat.le_refl _
      split
      · rw [now_putStream]
        exact Nat.le_add_right _ _
      · exact Nat.le_refl _

@[simp]
theorem now_withStream (use : Stream → Answer × Stream) :
    (session.withStream side use).2.now = session.now := by
  rw [withStream]
  split
  · exact now_putStream _ _ _
  · rfl

@[simp]
theorem now_handBack (hold : Hold) (leave : Stream → Stream) :
    (session.handBack side hold leave).2.now = session.now := by
  rw [handBack]
  split
  · simp
  · rfl

theorem now_le_happen (openings : Side → Opening) (occurrence : Occurrence) :
    session.now ≤ (session.happen openings occurrence).2.now := by
  cases occurrence with
  | join side pause =>
      rw [happen]
      split
      · exact Nat.le_refl _
      · simp [Session.join, Session.pass]
  | falter side trigger pause count => exact now_le_turn _ _ _ _ _
  | perform action =>
      rw [happen]
      cases action with
      | elapse time => exact Nat.le_add_right _ _
      | takeWrite side pause =>
          rw [perform_takeWrite]
          exact now_le_turn _ _ _ _ _
      | takeSegment side pause =>
          rw [perform_takeSegment]
          exact now_le_turn _ _ _ _ _
      | expire side pause =>
          rw [perform_expire]
          exact now_le_turn _ _ _ _ _
      | write side data | read side | readAll side | close side => simp [perform]
      | closed side | drop side => simp [perform]
      | inject side raw =>
          simp only [perform, inject]
          split
          · exact Nat.le_refl _
          · exact Nat.le_refl _
      | lose | setFailing | breakReceive | unplug => exact Nat.le_refl _

end Session

namespace Chronicle

open Session

variable {openings : Side → Opening} {side : Side}

/-- The parameters of one end and all times are moderate, and less happened than 32 bits count. -/
structure Moderate (openings : Side → Opening) (history : List Occurrence) (side : Side) : Prop where
  /-- The clock granularity is moderate. -/
  granularity_le : (openings side).config.clockGranularity ≤ moderate
  /-- So is the greatest timeout. -/
  maxTimeout_le : (openings side).config.maxTimeout ≤ moderate
  /-- So is the time. -/
  now_le : (run openings history).session.now ≤ moderate
  /-- Not too much happened. -/
  length_lt : history.length < UInt32.size

theorem Moderate.of_concat {history : List Occurrence} {occurrence : Occurrence}
    (moderate : Moderate openings (history ++ [occurrence]) side) :
    Moderate openings history side where
  granularity_le := moderate.granularity_le
  maxTimeout_le := moderate.maxTimeout_le
  now_le := by
    refine Nat.le_trans ?_ moderate.now_le
    rw [run_concat]
    exact now_le_happen _ openings occurrence
  length_lt := by
    have length_lt := moderate.length_lt
    rw [List.length_append] at length_lt
    exact Nat.lt_of_le_of_lt (Nat.le_add_right _ _) length_lt

/-- What happens to an endpoint at a moderate time is no fault. -/
theorem Mirrors.temperate_of_stirs {chronicle : Chronicle} {network : Network}
    (mirrors : chronicle.Mirrors openings network) (valid : ∀ side, (openings side).config.Valid)
    (granularity_le : (openings side).config.clockGranularity ≤ moderate)
    (maxTimeout_le : (openings side).config.maxTimeout ≤ moderate)
    (now_le : chronicle.session.now ≤ moderate) {later : Nat} (later_le : later ≤ moderate)
    {count : Nat} (count_lt : count + 1 < UInt32.size)
    (earlier : ∀ stream, chronicle.session.stream? side = some stream →
      stream.endpoint.Temperate count) {endpoint : Endpoint}
    (stirs : chronicle.session.Stirs (openings side) side later endpoint) :
    endpoint.Temperate (count + 1) := by
  cases stirs with
  | start failsAfter initiated =>
      exact .start (valid side) granularity_le maxTimeout_le now_le later_le initiated _ failsAfter
  | stay known => exact (earlier _ known).mono (Nat.le_succ count)
  | abandon known => exact (earlier _ known).abandon.mono (Nat.le_succ count)
  | @respond stream known wakeup failsAfter awaits arrives =>
      obtain ⟨seat, -, fits⟩ := mirrors.exists_fits known
      have running : stream.endpoint.activity = .running := by
        simp only [Endpoint.awaits, Bool.and_eq_true, Endpoint.isRunning_iff] at awaits
        exact awaits.1
      exact (earlier _ known).respond fits.mirrors.endpoint running (mirrors.arises side) wakeup
        (fun raw same => mirrors.arrives valid (arrives raw same)) now_le later_le count_lt failsAfter

/-- No overflow stops an endpoint at moderate times. -/
theorem temperate (valid : ∀ side, (openings side).config.Valid) (history : List Occurrence)
    (genuine : ∀ side raw, .perform (.inject side raw) ∉ history)
    (short : (run openings history).Short) (moderate : Moderate openings history side)
    {stream : Stream} (known : (run openings history).session.stream? side = some stream) :
    stream.endpoint.Temperate history.length := by
  induction history using List.reverseRecOn generalizing stream with
  | nil => cases side <;> cases known
  | append_singleton history occurrence ih =>
      have before := moderate.of_concat
      have length_lt := moderate.length_lt
      have later_le := moderate.now_le
      rw [run_concat] at short known later_le
      rw [List.length_append, List.length_singleton] at length_lt ⊢
      have genuine' (side : Side) (raw : Bytes) : .perform (.inject side raw) ∉ history :=
        fun mem => genuine side raw (List.mem_append_left _ mem)
      have earlier {stream : Stream}
          (known : (run openings history).session.stream? side = some stream) :
          stream.endpoint.Temperate history.length := ih genuine' short.of_add before known
      obtain ⟨network, mirrors⟩ := exists_mirrors valid history genuine' short.of_add
      obtain ⟨actor, later, affects⟩ := mirrors.happen valid occurrence
        fun side raw same => genuine side raw (by simp [same])
      rcases side.eq_or_eq_other actor with rfl | rfl
      · exact mirrors.temperate_of_stirs valid before.granularity_le before.maxTimeout_le
          before.now_le later_le length_lt (fun _ => earlier) (affects.stirs stream known)
      · refine (earlier ?_).mono (Nat.le_succ _)
        rw [stream?, ← affects.others]
        exact known

end Chronicle
end ReliableTransport
