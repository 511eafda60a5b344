import ReliableTransport.Proofs.Station.Course
import ReliableTransport.Proofs.Station.Intake

/-!
# What an end was told

Whatever happens at an end, its receiving side stays, learns the position of the peer's stream or
absorbs content, and the application is told exactly of what was absorbed.  The next expected byte
is never in the window, and before the handshake nothing was told.
-/

namespace ReliableTransport
namespace Station

variable {config : Config} {isn : SeqNum} {station after : Station} {now : Nat}

/-- What happens at an end makes something of its receiving side. -/
inductive Learns (before : Station) (occurrence : Occurrence) (after : Station) : Prop
  /-- The receiving side stays as it was. -/
  | nothing : after.connection.window = before.connection.window → after.events = before.events →
      (after.connection.phase = .terminated ∨
        after.connection.phase.isOpening = before.connection.phase.isOpening) →
      (before.connection.phase = .terminated → after.connection.phase = .terminated) →
      Learns before occurrence after
  /-- The position of the peer's stream becomes known. -/
  | handshake {raw : Bytes} {segment : Segment} : occurrence = .operate (.receive raw) →
      Segment.decode raw = .ok segment → before.connection.Meets segment after.connection →
      after.events = before.events → Learns before occurrence after
  /-- Content of the peer's stream is taken, and the application is told. -/
  | content {raw : Bytes} {segment : Segment} {run : Bytes} {finished : Bool} :
      occurrence = .operate (.receive raw) → Segment.decode raw = .ok segment →
      before.connection.phase.isOpening = false → before.connection.phase ≠ .terminated →
      before.connection.Absorbs segment run finished after.connection →
      after.events = before.events ++
        AppEvent.tidings run (finished && !before.connection.phase.peerFinished) →
      Learns before occurrence after

theorem Arises.undergo (arises : Arises config isn station) {occurrence : Occurrence}
    (done : station.undergo occurrence now = .ok after) : Arises config isn after := by
  have lived : station.live [(occurrence, now)] = .ok after := by
    rw [live_cons, done]
    rfl
  exact arises.live lived

theorem events_emit (station : Station) : station.emit.events = station.events := by
  rw [emit]
  split <;> rfl

theorem events_hear (station : Station) : station.hear.events = station.events := by
  rw [hear]
  split
  · rfl
  · next event later events_eq => simp [events, events_eq]

theorem sent_emit (station : Station) : station.emit.sent = station.sent := by
  rw [emit]
  split
  · rfl
  · next raw outbox outbox_eq => simp [sent, outbox_eq]

theorem sent_hear (station : Station) : station.hear.sent = station.sent := by
  rw [hear]
  split <;> rfl

/-- Whatever happens at an end, the receiving side learns by one of these ways. -/
theorem undergo_learns {occurrence : Occurrence}
    (done : station.undergo occurrence now = .ok after) : station.Learns occurrence after := by
  cases occurrence with
  | emit =>
      obtain rfl := Except.ok.inj done
      refine .nothing ?_ station.events_emit (Or.inr ?_) ?_
      all_goals rw [connection_emit]
      exact id
  | hear =>
      obtain rfl := Except.ok.inj done
      refine .nothing ?_ station.events_hear (Or.inr ?_) ?_
      all_goals rw [connection_hear]
      exact id
  | operate operation =>
      obtain ⟨connection, applied, rfl⟩ := exists_of_undergo_operate done
      cases Connection.apply_learns applied with
      | nothing rests =>
          exact .nothing rests.window_eq (congrArg (station.heard ++ ·) rests.events_eq) rests.phase
            rests.ended
      | handshake operation_eq decoded meets =>
          exact .handshake (congrArg _ operation_eq) decoded meets
            (congrArg (station.heard ++ ·) meets.events_eq)
      | content operation_eq decoded opened running absorbs =>
          refine .content (congrArg _ operation_eq) decoded opened running absorbs ?_
          rw [events, events, absorbs.events_eq, List.append_assoc]

/-- Whatever is queued acknowledges the next expected position as it is then. -/
theorem undergo_answers {occurrence : Occurrence}
    (done : station.undergo occurrence now = .ok after) :
    ∃ queued, after.sent = station.sent ++ queued ∧
      ∀ raw ∈ queued, Segment.Confirms raw after.connection.recvNext := by
  cases occurrence with
  | emit =>
      obtain rfl := Except.ok.inj done
      exact ⟨[], by rw [sent_emit, List.append_nil], by simp⟩
  | hear =>
      obtain rfl := Except.ok.inj done
      exact ⟨[], by rw [sent_hear, List.append_nil], by simp⟩
  | operate operation =>
      obtain ⟨connection, applied, rfl⟩ := exists_of_undergo_operate done
      obtain ⟨queued, outbox_eq, confirms⟩ := (Connection.apply_learns applied).answers
      exact ⟨queued, by rw [sent, sent, outbox_eq, List.append_assoc], confirms⟩

/-- An end waits for the next byte, was told of runs that fit in its window, and of nothing before
the handshake. -/
structure Attentive (station : Station) (capacity : Nat) : Prop where
  /-- The window has its capacity. -/
  capacity_eq : station.connection.window.capacity = capacity
  /-- The next expected byte is missing. -/
  gap : station.connection.window.buffered 0 = none
  /-- Nothing is told as long as the position of the peer's stream is unknown. -/
  untold : station.connection.phase.isOpening = true → station.events = []
  /-- What is told at once fits in the window. -/
  fits : ∀ bytes, .data bytes ∈ station.events → bytes.length ≤ capacity

namespace Attentive

variable {capacity : Nat}

theorem create {connection : Connection}
    (created : Connection.create config isn = .ok connection) :
    Attentive { connection } config.receiveWindow.toNat := by
  obtain ⟨window, opened, rfl⟩ := Connection.eq_of_create created
  rw [ReceiveWindow.create] at opened
  split at opened
  next positive =>
    obtain rfl := Except.ok.inj opened
    exact ⟨Ring.capacity_empty _ positive, Ring.get?_empty _ positive 0, fun _ => rfl,
      by simp [events]⟩
  next => cases opened

theorem undergo (attentive : station.Attentive capacity) {occurrence : Occurrence}
    (done : station.undergo occurrence now = .ok after) : after.Attentive capacity := by
  cases undergo_learns done with
  | nothing window_eq events_eq phase _ =>
      refine ⟨by rw [window_eq, attentive.capacity_eq], by rw [window_eq, attentive.gap],
        fun opening => ?_, by rw [events_eq]; exact attentive.fits⟩
      rw [events_eq]
      rcases phase with past | same
      · simp [past, Phase.isOpening] at opening
      · exact attentive.untold (same ▸ opening)
  | handshake _ _ meets events_eq =>
      refine ⟨?_, ?_, fun opening => by simp [meets.isOpening_after] at opening,
        by rw [events_eq]; exact attentive.fits⟩
      · rw [meets.window_eq, ReceiveWindow.capacity_consumeFlag,
          ReceiveWindow.capacity_synchronize, attentive.capacity_eq]
      · rw [meets.window_eq, ReceiveWindow.buffered_consumeFlag]
  | content _ _ _ _ absorbs events_eq =>
      refine ⟨absorbs.capacity_eq.trans attentive.capacity_eq, absorbs.gap attentive.gap,
        fun opening => by simp [absorbs.opened] at opening, fun bytes mem => ?_⟩
      rw [events_eq] at mem
      rcases List.mem_append.mp mem with mem | mem
      · exact attentive.fits bytes mem
      · obtain rfl := AppEvent.eq_of_data_mem_tidings mem
        exact absorbs.length_le.trans_eq attentive.capacity_eq

theorem live (attentive : station.Attentive capacity) {history : List (Occurrence × Nat)}
    (done : station.live history = .ok after) : after.Attentive capacity :=
  live_induction (Attentive · capacity) (fun kept happened => kept.undergo happened) attentive done

end Attentive

/-- A handshake that was begun is not begun again. -/
theorem isOpening_of_undergo (opened : station.connection.phase.isOpening = false)
    {occurrence : Occurrence} (done : station.undergo occurrence now = .ok after) :
    after.connection.phase.isOpening = false := by
  cases undergo_learns done with
  | nothing _ _ phase _ =>
      rcases phase with past | same
      · rw [past]
        rfl
      · rw [same, opened]
  | handshake _ _ meets _ => exact meets.isOpening_after
  | content _ _ _ _ absorbs _ => exact absorbs.opened

/-- Nothing is told to an end that is over.  An end that knows the position of its peer is not
concerned by a segment that brings nothing. -/
theorem Attentive.undergo_silent {capacity : Nat} (attentive : station.Attentive capacity)
    (opened : station.connection.phase.isOpening = false) {occurrence : Occurrence}
    (done : station.undergo occurrence now = .ok after)
    (silent : station.connection.phase = .terminated ∨
      ∀ raw segment, occurrence = .operate (.receive raw) → Segment.decode raw = .ok segment →
        ¬ segment.Brings station.connection.recvNext) :
    after.connection.recvNext = station.connection.recvNext ∧ after.events = station.events ∧
      (station.connection.phase = .terminated → after.connection.phase = .terminated) := by
  cases undergo_learns done with
  | nothing window_eq events_eq _ ended =>
      exact ⟨congrArg ReceiveWindow.next window_eq, events_eq, ended⟩
  | handshake _ _ meets _ => simp [meets.opening] at opened
  | @content raw segment run finished occurrence_eq decoded _ running absorbs events_eq =>
      have silent := silent.resolve_left running raw segment occurrence_eq decoded
      have nothing : ¬ (run ≠ [] ∨ finished = true) :=
        fun taken => silent (absorbs.cause attentive.gap taken)
      obtain ⟨rfl, rfl⟩ : run = [] ∧ finished = false := by simpa [not_or] using nothing
      refine ⟨?_, by simp [events_eq, AppEvent.tidings], fun past => absurd past running⟩
      rw [absorbs.next_eq]
      exact SeqNum.advance_zero _

/-- Every end is attentive through its life. -/
theorem Arises.attentive (arises : Arises config isn station) :
    station.Attentive config.receiveWindow.toNat := by
  obtain ⟨connection, history, created, lived⟩ := arises
  exact (Attentive.create created).live lived

theorem Arises.finished_iff (arises : Arises config isn station)
    (running : station.connection.phase ≠ .terminated) :
    .peerFinished ∈ station.events ↔ station.connection.phase.peerFinished = true := by
  obtain ⟨ledger, settled, sound⟩ := arises.sound
  rw [← sound.connection.admits.fin_mem_received_iff running, ← List.count_pos_iff,
    sound.count_peerFinished]
  split
  · simpa
  · simpa

theorem Arises.count_peerFinished_le (arises : Arises config isn station) :
    station.events.count .peerFinished ≤ 1 := by
  obtain ⟨ledger, settled, sound⟩ := arises.sound
  rw [sound.count_peerFinished]
  split <;> decide

theorem events_isPrefix_of_undergo {occurrence : Occurrence}
    (done : station.undergo occurrence now = .ok after) : station.events <+: after.events := by
  cases undergo_learns done with
  | nothing _ events_eq _ _ => exact events_eq ▸ List.prefix_refl _
  | handshake _ _ _ events_eq => exact events_eq ▸ List.prefix_refl _
  | content _ _ _ _ _ events_eq => exact events_eq ▸ List.prefix_append _ _

theorem events_isPrefix_of_live {history : List (Occurrence × Nat)}
    (done : station.live history = .ok after) : station.events <+: after.events :=
  live_induction (station.events <+: ·.events)
    (fun told happened => told.trans (events_isPrefix_of_undergo happened)) (List.prefix_refl _)
    done

end Station
end ReliableTransport
