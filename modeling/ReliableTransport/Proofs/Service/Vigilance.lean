import ReliableTransport.Proofs.Connection.Grants
import ReliableTransport.Proofs.Service.Conservation
import ReliableTransport.Proofs.Station.Phases
import ReliableTransport.Proofs.Station.SendSpace
import ReliableTransport.Proofs.Station.Succession

/-!
# An endpoint does not stall

There is no timer that asks a peer for a new window.  As long as every segment of the peer grants
some window, none is needed: pending data waits only behind data that is outstanding, and for this
the deadline is set.
-/

namespace ReliableTransport

open Fault

/-- The segment that a round takes, if any, grants some window. -/
def Endpoint.Round.Generous (round : Endpoint.Round) : Prop :=
  ∀ raw segment, round.wakeup = some (.received raw) →
    Segment.decode (raw.take Endpoint.receiveLimit) = .ok segment → segment.header.window ≠ 0

namespace Station

variable {config : Config} {isn : SeqNum} {station later : Station} {round : Endpoint.Round}

theorem Heeds.canSend (heeds : station.Heeds round later) (arises : Arises config isn station)
    (running : later.connection.phase ≠ .terminated) (can : station.connection.canSend = true) :
    later.connection.canSend = true := by
  have known := heeds.isSome_finSeq_eq arises
  simp only [Connection.canSend, Bool.and_eq_true] at can ⊢
  refine ⟨?_, by rw [← Option.not_isSome, known, Option.not_isSome]; exact can.2⟩
  have stays {operation : Connection.Operation}
      (moved : later.connection.phase ∈ operation.leads station.connection.phase)
      (wakes : operation = .expire ∨ ∃ raw, operation = .receive raw) :
      later.connection.phase.isSending = true := by
    rcases wakes with rfl | ⟨raw, rfl⟩
    · exact absurd (List.mem_singleton.mp moved) running
    · cases phase_eq : station.connection.phase <;>
        simp_all [Connection.Operation.leads, Phase.onSegment, Phase.isSending]
  cases heeds with
  | idle => exact can.1
  | @receive raw _ _ done =>
      rcases undergo_phase done with same | ⟨_, ⟨⟩, moved⟩
      · rw [same]
        exact can.1
      · exact stays moved (Or.inr ⟨_, rfl⟩)
  | expire _ done =>
      rcases undergo_phase done with same | ⟨_, ⟨⟩, moved⟩
      · rw [same]
        exact can.1
      · exact stays moved (Or.inl rfl)

theorem Heeds.grants (heeds : station.Heeds round later) (arises : Arises config isn station)
    (valid : config.Valid) (generous : round.Generous) (grants : station.connection.Grants) :
    later.connection.Grants := by
  cases heeds with
  | idle => exact grants
  | receive woken done =>
      obtain ⟨connection, received, rfl⟩ := exists_of_undergo_operate done
      obtain ⟨ledger, settled, sound⟩ := arises.sound
      have config_eq : station.connection.config = config := sound.connection.config_eq
      refine grants.receive ?_ (generous _ · woken) (fun waiting => ?_) received
      · rw [config_eq]
        exact ((Config.valid_iff _).mp valid).2.2.2.1
      · have admits := sound.connection.admits
        rw [waiting] at admits
        rw [sound.connection.writes.next_eq, admits.1]
        rfl
  | expire _ done =>
      obtain ⟨connection, expired, rfl⟩ := exists_of_undergo_operate done
      obtain ⟨⟨result, last⟩, expires, expired⟩ := exists_of_bind_eq_ok expired
      obtain rfl := Except.ok.inj expired
      rcases Connection.expire_cases expires with
        ⟨-, rfl, -⟩ | ⟨-, rfl⟩ | ⟨segments, roundTrip, -, -, rfl⟩
      · exact grants
      · exact fun _ running => absurd rfl running
      · exact grants

end Station

namespace Endpoint

variable {config : Config} {isn : SeqNum} {endpoint awake middle : Endpoint} {station : Station}
  {round : Round} {now : Nat}

theorem sendWindow_of_segmentPending (segmented : awake.segmentPending now = .ok middle) :
    middle.connection.sendWindow = awake.connection.sendWindow := by
  obtain ⟨⟨chunks, rest, flushed⟩, sent, segmented⟩ := exists_of_bind_eq_ok segmented
  obtain ⟨flight, sendNext, outbox, flushed_eq⟩ := Connection.flushWithin_frame sent
  simp only at segmented
  split at segmented
  · obtain ⟨connection, closed, segmented⟩ := exists_of_bind_eq_ok segmented
    obtain rfl := Except.ok.inj segmented
    rcases Connection.eq_of_close closed with rfl | ⟨-, rfl⟩ | ⟨-, flight, sendNext, rfl⟩
    all_goals rw [flushed_eq]
    rfl
  · obtain rfl := Except.ok.inj segmented
    rw [flushed_eq]

/-- Something can be sent now or behind what is outstanding. -/
structure Vigilant (endpoint : Endpoint) : Prop where
  /-- The peer grants some window. -/
  grants : endpoint.connection.Grants
  /-- The own direction is open as long as something is pending. -/
  sends : endpoint.pending ≠ [] → endpoint.connection.canSend = true
  /-- What is pending cannot be sent for now. -/
  exhausted : endpoint.connection.nextChunk endpoint.pending = []

theorem Vigilant.serve (vigilant : endpoint.Vigilant) (lives : endpoint.Lives config isn station)
    (goes : station.connection.phase ≠ .terminated) (valid : config.Valid)
    (awaited : ∀ wakeup, round.wakeup = some wakeup → endpoint.awaits wakeup round.now = true)
    (generous : round.Generous) (waits : (endpoint.serve round).activity = .running) :
    (endpoint.serve round).Vigilant := by
  obtain ⟨awake, middle, heeded, segmented, remains, serve_eq⟩ := exists_of_serve waits
  obtain ⟨later, lives', heeds⟩ := lives.heed goes heeded
  obtain ⟨pending_eq, -, -, -⟩ := taken_of_heed heeded
  have connection_eq := lives.accords.connection_eq
  have connection_eq' := lives'.accords.connection_eq
  have grants : awake.connection.Grants :=
    connection_eq' ▸ heeds.grants lives.arises valid generous (connection_eq ▸ vigilant.grants)
  obtain ⟨_, _, middle_eq, -, moved⟩ := segmentPending_cases segmented
  have moved : middle.connection.phase = awake.connection.phase ∨
      awake.connection.phase.isSynchronized = true ∧
        middle.connection.phase.isSynchronized = true := by
    rwa [middle_eq]
  have running : awake.connection.phase ≠ .terminated := by
    rcases moved with same | ⟨synchronized, -⟩
    · exact same ▸ remains
    · exact Phase.ne_terminated_of_synchronized synchronized
  have sends (pending : awake.pending ≠ []) : awake.connection.canSend = true := by
    have can : endpoint.connection.canSend = true := by
      by_cases untaken : round.message? = none
      · refine vigilant.sends fun empty => pending ?_
        rw [pending_eq, untaken, empty]
        rfl
      · exact (takesWrites_of_awaits awaited (Or.inl untaken)).1
    rw [connection_eq'] at running ⊢
    exact heeds.canSend lives.arises running (connection_eq ▸ can)
  have exhausted := exhausted_of_segmentPending segmented
  rw [serve_eq, handed_eq]
  refine ⟨fun opening goes => ?_, fun pending => ?_, exhausted⟩
  · change 0 < middle.connection.sendWindow
    rw [sendWindow_of_segmentPending segmented]
    refine grants ?_ running
    rcases moved with same | ⟨synchronized, -⟩
    · exact same ▸ opening
    · exact Phase.isOpening_of_synchronized synchronized
  · obtain ⟨queued, -, segments⟩ := segments_of_segmentPending segmented
    cases segments with
    | data _ split_eq phase_eq finSeq_eq _ =>
        have can := sends fun empty => pending (List.append_eq_nil_iff.mp (split_eq ▸ empty)).2
        simpa [Connection.canSend, phase_eq, finSeq_eq] using can
    | finish _ _ pending_eq _ _ _ => exact absurd pending_eq pending

theorem Vigilant.inFlight_pos (vigilant : endpoint.Vigilant)
    (valid : endpoint.connection.config.Valid) (pending : endpoint.pending ≠ []) :
    0 < endpoint.connection.inFlight := by
  have can := vigilant.sends pending
  have nothing := vigilant.exhausted
  rw [Connection.nextChunk, if_pos can, List.take_eq_nil_iff] at nothing
  have size_pos := ((Config.valid_iff _).mp valid).1
  have synchronized := Phase.synchronized_of_sending (Connection.isSending_of_canSend can)
  have room := vigilant.grants (Phase.isOpening_of_synchronized synchronized)
    (Phase.ne_terminated_of_synchronized synchronized)
  have usable := nothing.resolve_right pending
  rw [Connection.usableWindow] at usable
  omega

end Endpoint

namespace Stream

open Endpoint

variable {role : Role} {config : Config} {isn : SeqNum} {opening : Nat} {connection : Connection}
  {accepted : List Bytes} {log : List (Endpoint × Endpoint.Round)} {stream : Stream}

/-- An endpoint that waits is vigilant if the peer always grants some window. -/
theorem Served.vigilant (initiated : initiate role config isn opening = .ok connection)
    (valid : config.Valid) (served : Served connection accepted log stream)
    (generous : ∀ entry ∈ log, entry.2.Generous) (waits : stream.endpoint.activity = .running) :
    stream.endpoint.Vigilant := by
  obtain ⟨arises, goes, -⟩ := arises_of_initiate initiated
  obtain ⟨opening, -, -⟩ := plain_of_initiate initiated
  induction served with
  | start now later failsAfter =>
      have blank : Endpoint.Vigilant { connection } :=
        ⟨fun opened _ => by simp [opening] at opened, by simp, connection.nextChunk_nil⟩
      exact blank.serve (.start arises goes) goes valid (by simp) (generous _ List.mem_cons_self)
        waits
  | @write _ _ stream data _ _ ih =>
      obtain ⟨writes, write_eq⟩ := stream.write_eq data
      rw [write_eq] at waits ⊢
      exact ih generous waits
  | close _ ih => exact ih generous waits
  | @round _ _ _ stream wakeup now later failsAfter served awaits _ ih =>
      have running := running_of_awaits awaits
      obtain ⟨station, lives⟩ := served.lives arises goes (Or.inl running)
      obtain ⟨lives', goes'⟩ := lives.waiting running
      have vigilant := ih (fun entry mem => generous entry (List.mem_append_left _ mem)) running
      refine vigilant.serve lives' goes' valid ?_
        (generous _ (List.mem_append_right _ List.mem_cons_self)) waits
      rintro _ ⟨⟩
      exact awaits

/-- If every segment that arrived grants some window, an endpoint that waits has the timer set for
what is due, awaits the channel of writes, or has sent the FIN. -/
theorem Served.never_stalls (initiated : initiate role config isn opening = .ok connection)
    (valid : config.Valid) (served : Served connection accepted log stream)
    (generous : ∀ entry ∈ log, entry.2.Generous) (waits : stream.endpoint.activity = .running) :
    (stream.endpoint.connection.inFlight ≠ 0 ∨ stream.endpoint.pending ≠ [] →
      ∃ deadline, stream.endpoint.deadline? = some deadline ∧
        ∀ now, deadline ≤ now → stream.endpoint.awaits .expired now = true) ∧
    (stream.endpoint.pending = [] → stream.endpoint.writerClosed = false →
      stream.endpoint.connection.phase = .established ∨
        stream.endpoint.connection.phase = .closeWait →
      ∀ now, (∀ data, stream.endpoint.awaits (.written data) now = true) ∧
        stream.endpoint.awaits .writerClosed now = true) ∧
    (stream.endpoint.writerClosed = true → ∃ raw ∈ stream.endpoint.sent, Segment.Finishes raw) := by
  obtain ⟨arises, goes, -⟩ := arises_of_initiate initiated
  obtain ⟨station, lives⟩ := served.lives arises goes (Or.inl waits)
  have conserves := served.conserves initiated waits
  have vigilant := served.vigilant initiated valid generous waits
  have connection_eq : stream.endpoint.connection = station.connection :=
    lives.endpoint.accords.connection_eq
  have isRunning := stream.endpoint.isRunning_iff.mpr waits
  obtain ⟨ledger, settled, sound⟩ := lives.endpoint.arises.sound
  have valid : station.connection.config.Valid := by
    rw [show station.connection.config = config from sound.connection.config_eq]
    exact valid
  have space := sound.connection.writes.counters_agree valid (lives.running_iff.mp waits)
  refine ⟨fun due => ?_, fun empty unclosed opened now => ?_, conserves.finishes⟩
  · have outstanding : stream.endpoint.connection.flight.segments ≠ [] := by
      rw [Ne, connection_eq, space.empty_iff, ← connection_eq]
      rcases due with unacked | pending
      · exact unacked
      · exact (vigilant.inFlight_pos (connection_eq ▸ valid) pending).ne'
    obtain ⟨deadline, deadline_eq, -⟩ := Connection.exists_deadline outstanding
    have deadline_eq : stream.endpoint.deadline? = some deadline := deadline_eq
    refine ⟨deadline, deadline_eq, fun now expired => ?_⟩
    simpa [awaits, isRunning, deadline_eq] using expired
  · have sending : stream.endpoint.connection.phase.isSending = true := by
      rcases opened with phase_eq | phase_eq <;> rw [phase_eq] <;> rfl
    have unfinished : stream.endpoint.connection.finSeq.isSome = false :=
      conserves.regular.symm.trans unclosed
    have takes : stream.endpoint.takesWrites = true := by
      simp [takesWrites, Connection.canSend, sending, unclosed, empty,
        Option.isSome_eq_false_iff.mp unfinished]
    exact ⟨fun data => by simp [awaits, isRunning, takes], by simp [awaits, isRunning, takes]⟩

/-- Six bytes are written and four of them fill the window of the peer, so that the timer is set. -/
theorem Served.never_stalls_full :
    ∃ connection log stream, initiate .passive Network.narrow ⟨7⟩ 0 = .ok connection ∧
      Served connection [[66, 67, 68, 69, 70, 71]] log stream ∧
      (∀ entry ∈ log, entry.2.Generous) ∧ stream.endpoint.activity = .running ∧
      stream.endpoint.pending = [70, 71] ∧
      ∃ deadline, stream.endpoint.deadline? = some deadline ∧
        ∀ now, deadline ≤ now → stream.endpoint.awaits .expired now = true := by
  have granting {raw : Bytes} {segment : Segment} {now later : Nat} {failsAfter : Option Nat}
      (decoded : Segment.decode (raw.take receiveLimit) = .ok segment)
      (window_ne : segment.header.window ≠ 0) :
      Round.Generous ⟨some (.received raw), now, later, failsAfter⟩ := by
    rintro _ other ⟨⟩ decoded'
    obtain rfl := Except.ok.inj (decoded.symm.trans decoded')
    exact window_ne
  obtain ⟨connection, initiated, log, stream, served, waits, pending_eq, generous⟩ :
      ∃ connection, initiate .passive Network.narrow ⟨7⟩ 0 = .ok connection ∧
        ∃ log stream, Served connection [[66, 67, 68, 69, 70, 71]] log stream ∧
          stream.endpoint.activity = .running ∧ stream.endpoint.pending = [70, 71] ∧
          ∀ entry ∈ log, entry.2.Generous := by
    refine ⟨_, rfl, _, _, .round (.written [66, 67, 68, 69, 70, 71]) 3 3 none
      (.write [66, 67, 68, 69, 70, 71]
        (.round (.received (Segment.acknowledgment ⟨5⟩ ⟨8⟩ 4)) 2 2 none
          (.round (.received ((Cargo.syn false).encode ⟨4⟩ ⟨0⟩ 4)) 1 1 none
            (.start 0 0 none) rfl rfl) rfl rfl) rfl) rfl rfl, rfl, rfl, ?_⟩
    simp only [List.forall_mem_append, List.forall_mem_singleton]
    refine ⟨⟨⟨?_, granting rfl (by decide)⟩, granting rfl (by decide)⟩, ?_⟩
    · rintro _ _ ⟨⟩
    · rintro _ _ ⟨⟩
  obtain ⟨timer, -, -⟩ := served.never_stalls initiated rfl generous waits
  exact ⟨connection, log, stream, initiated, served, generous, waits, pending_eq,
    timer (Or.inr (by simp [pending_eq]))⟩

end Stream
end ReliableTransport
