import ReliableTransport.Proofs.Connection.Content
import ReliableTransport.Proofs.Station.Phases

/-!
# The answer to content

An agreed connection answers every payload and every FIN within its window by one acknowledgment,
wherever they are in the peer's stream and whatever they acknowledge.  The exception is a segment that
acknowledges the own FIN when the peer's was taken before.  It ends the connection, and its content
is not answered any more.
-/

namespace ReliableTransport

open Fault Script

theorem Phase.afterFinAcked_eq_terminated_iff {phase : Phase} (running : phase ≠ .terminated) :
    phase.afterFinAcked = .terminated ↔ phase = .lastAck ∨ phase = .closing := by
  cases phase <;> simp [afterFinAcked] at running ⊢

namespace Connection

variable {connection after : Connection} {background : Background} {ledger : Ledger}
  {settled now : Nat} {ack : SeqNum} {advertised : UInt16} {segment : Segment}

/-- A segment acknowledges the own FIN to a connection that waits for nothing else. -/
def Concludes (connection : Connection) (segment : Segment) : Prop :=
  (connection.phase = .lastAck ∨ connection.phase = .closing) ∧
    segment.header.flags.ack = true ∧ segment.header.ack = connection.sendNext

instance (connection : Connection) (segment : Segment) : Decidable (connection.Concludes segment) :=
  inferInstanceAs (Decidable (_ ∧ _))

/-- The round-trip times that an acknowledgment measures leave their range. -/
def Mistimes (connection : Connection) (ack : SeqNum) (now : Nat) : Prop :=
  (Flight.samples (connection.flight.covered ack) now).foldlM RoundTrip.observe
    connection.roundTrip = .error .duration

namespace Sound

theorem acked_eq_iff (sound : connection.Sound background ledger settled) :
    ledger.acked = ledger.script ↔ connection.sendUnacked = connection.sendNext := by
  have extent_le := sound.writes.extent_le
  have settled_le := sound.writes.settled_le
  rw [sound.writes.acked_eq_iff, sound.writes.unacked_eq, sound.writes.next_eq,
    SeqNum.advance_inj _ (by omega) (by omega)]

theorem sendNext_after (sound : connection.Sound background ledger settled)
    (pending : ledger.acked ≠ ledger.script) :
    connection.sendNext.After connection.sendUnacked := by
  have extent_le := sound.writes.extent_le
  have settled_le := sound.writes.settled_le
  have unsettled := mt sound.writes.acked_eq_iff.mpr pending
  rw [sound.writes.next_eq, sound.writes.unacked_eq, SeqNum.after_advance_iff _ (by omega) (by omega)]
  omega

theorem terminated_iff (sound : connection.Sound background ledger settled)
    (running : connection.phase ≠ .terminated)
    (taken : connection.takeAck ack advertised now = .ok after) :
    after.phase = .terminated ↔
      (connection.phase = .lastAck ∨ connection.phase = .closing) ∧ ack = connection.sendNext := by
  obtain ⟨acked, settled', sound', moved⟩ :=
    (sound.takeAck running ack advertised now).of_ok taken
  constructor
  · intro past
    rcases moved with same | ⟨moved, -, all⟩
    · exact absurd (same ▸ past) running
    refine ⟨(Phase.afterFinAcked_eq_terminated_iff running).mp (moved.symm.trans past), ?_⟩
    have covered := sound'.acked_eq_iff.mp all
    rcases takeAck_cases taken with ⟨-, rfl⟩ | ⟨-, -, rfl⟩ | ⟨-, -, _, _, _, rfl, -⟩
    · exact absurd past running
    · exact absurd past running
    · exact covered
  · rintro ⟨waiting, rfl⟩
    have unacked : connection.phase.finAcked = false := by
      rcases waiting with phase_eq | phase_eq <;> rw [phase_eq] <;> rfl
    have written : .fin ∈ ledger.script := by
      rw [sound.admits.fin_mem_script_iff running]
      rcases waiting with phase_eq | phase_eq <;> rw [phase_eq] <;> rfl
    have pending : ledger.acked ≠ ledger.script := by
      intro all
      have acked' := (sound.admits.acked_iff running).mp ⟨written, all⟩
      rw [unacked] at acked'
      cases acked'
    have all : acked = ledger.script := by
      rw [sound'.acked_eq_iff]
      rcases takeAck_cases taken with ⟨unsent, -⟩ | ⟨-, old, -⟩ | ⟨-, -, _, _, _, rfl, -⟩
      · exact absurd unsent connection.sendNext.not_after_self
      · exact absurd (sound.sendNext_after pending) old
      · rfl
    rcases moved with same | ⟨moved, -, -⟩
    · have acked' := (sound'.admits.acked_iff (by rwa [same])).mp ⟨written, all⟩
      rw [same, unacked] at acked'
      cases acked'
    · rw [moved, Phase.afterFinAcked_eq_terminated_iff running]
      exact waiting

theorem takeAck_ensures (sound : connection.Sound background ledger settled)
    (running : connection.phase ≠ .terminated) (ack : SeqNum) (advertised : UInt16) (now : Nat) :
    Ensures (fun fault => fault = .duration ∧ connection.Mistimes ack now)
      (fun after =>
        (after.phase = .terminated ↔
          (connection.phase = .lastAck ∨ connection.phase = .closing) ∧
            ack = connection.sendNext) ∧
        ∃ sendWindow sendUnacked flight roundTrip phase,
          after = { connection with sendWindow, sendUnacked, flight, roundTrip, phase })
      (connection.takeAck ack advertised now) := by
  cases taken : connection.takeAck ack advertised now with
  | ok after =>
      obtain ⟨sendWindow, sendUnacked, flight, roundTrip, phase, after_eq, -⟩ := eq_of_takeAck taken
      exact ⟨sound.terminated_iff running taken, _, _, _, _, _, after_eq⟩
  | error fault =>
      obtain rfl : fault = .duration := (sound.takeAck running ack advertised now).of_error taken
      refine ⟨rfl, ?_⟩
      rw [Connection.takeAck] at taken
      split at taken
      · cases taken
      simp only at taken
      split at taken
      · rcases error_of_bind_eq_error taken with failed | ⟨⟨flight, roundTrip⟩, -, failed⟩
        · rcases error_of_bind_eq_error failed with failed | ⟨estimate, -, failed⟩
          · exact failed
          · split at failed <;> cases failed
        · cases failed
      · cases taken

/-- A segment without SYN on an agreed connection whose content is within the window is answered by
one acknowledgment, unless it concludes the connection. -/
theorem receive_answers (sound : connection.Sound background ledger settled)
    (synchronized : connection.phase.isSynchronized) {raw : Bytes}
    (decoded : Segment.decode raw = .ok segment) (plain : segment.header.flags.syn = false)
    (content : segment.payload ≠ [] ∨ segment.header.flags.fin = true)
    (inside : segment.payload ≠ [] → ∀ rest,
      connection.window.receive segment.header.seq segment.payload ≠ .ok (.outOfWindow, rest))
    (now : Nat) :
    Ensures
      (fun fault =>
        fault = .duration ∧ segment.header.flags.ack = true ∧
          connection.Mistimes segment.header.ack now ∨
        fault = .count ∧ UInt32.size ≤ segment.payload.length)
      (fun after =>
        if connection.Concludes segment then
          after.phase = .terminated ∧ after.outbox = connection.outbox
        else connection.Acknowledges after)
      (connection.receive raw now) := by
  rw [receive_eq synchronized decoded plain]
  cases acks : segment.header.flags.ack with
  | false =>
      have lasting : ¬ connection.Concludes segment := by simp [Concludes, acks]
      simp only [lasting, if_false, Bool.false_eq_true]
      exact (takeContent_answers content inside).mono (fun _ => Or.inr) fun _ => id
  | true =>
      have running := Phase.ne_terminated_of_synchronized synchronized
      rw [if_pos rfl]
      refine ((sound.takeAck_ensures running segment.header.ack segment.header.window now).mono
        (fun _ ⟨fault_eq, mistimes⟩ => Or.inl ⟨fault_eq, rfl, mistimes⟩) fun _ => id).bind ?_
      rintro middle ⟨ended_iff, sendWindow, sendUnacked, flight, roundTrip, phase, rfl⟩
      have concludes_iff : connection.Concludes segment ↔ phase = .terminated := by
        rw [ended_iff, Concludes, acks]
        exact and_congr_right fun _ => and_iff_right rfl
      by_cases past : phase = .terminated
      · simp only [concludes_iff, past, if_true]
        exact ⟨rfl, rfl⟩
      · simp only [concludes_iff, past, if_false]
        refine (takeContent_answers content ?_).mono (fun _ => Or.inr) fun _ => id
        exact inside

end Sound
end Connection

namespace Station

variable {config : Config} {isn : SeqNum} {station : Station}

/-- Whatever arrives with a payload or a FIN within the window of an agreed connection is answered
by exactly one acknowledgment, stale or not, unless it concludes the connection. -/
theorem Arises.answers_content (arises : Arises config isn station)
    (synchronized : station.connection.phase.isSynchronized) {raw : Bytes} {segment : Segment}
    (decoded : Segment.decode raw = .ok segment) (plain : segment.header.flags.syn = false)
    (content : segment.payload ≠ [] ∨ segment.header.flags.fin = true)
    (inside : segment.payload ≠ [] → ∀ rest,
      station.connection.window.receive segment.header.seq segment.payload ≠
        .ok (.outOfWindow, rest))
    (now : Nat) :
    Ensures
      (fun fault =>
        fault = .duration ∧ segment.header.flags.ack = true ∧
          station.connection.Mistimes segment.header.ack now ∨
        fault = .count ∧ UInt32.size ≤ segment.payload.length)
      (fun after =>
        if station.connection.Concludes segment then
          after.phase = .terminated ∧ after.outbox = station.connection.outbox
        else
          after.sendNext = station.connection.sendNext ∧
            after.outbox = station.connection.outbox ++
              [Segment.acknowledgment station.connection.sendNext after.recvNext
                config.receiveWindow])
      (station.connection.receive raw now) := by
  obtain ⟨ledger, settled, sound⟩ := arises.sound
  have answers :=
    sound.connection.receive_answers synchronized decoded plain content inside now
  have config_eq : station.connection.config = config := sound.connection.config_eq
  rw [← config_eq]
  exact answers

/-- Both ends finish their directions at once, where the own positions wrap around. -/
def crossedFins : List (Occurrence × Nat) :=
  [(.operate .listen, 0), (.operate (.receive ((Cargo.syn false).encode ⟨7⟩ ⟨0⟩ 4)), 1),
    (.operate .close, 2), (.operate (.receive (Cargo.fin.encode ⟨8⟩ ⟨0⟩ 4)), 3)]

/-- A stale byte is acknowledged when the FINs have crossed. -/
theorem answers_content_crossed :
    ∃ (station : Station) (after : Connection), Arises Network.narrow ⟨4294967295⟩ station ∧
      station.connection.phase = .closing ∧
      station.connection.receive ((Cargo.data [65]).encode ⟨8⟩ ⟨0⟩ 4) 5 = .ok after ∧
      after.outbox =
        station.connection.outbox ++ [Segment.acknowledgment ⟨1⟩ ⟨9⟩ Network.narrow.receiveWindow] := by
  have arises : Arises Network.narrow ⟨4294967295⟩ _ := ⟨_, crossedFins, rfl, rfl⟩
  have answers := arises.answers_content (by rfl) (Cargo.decode_encode (.data [65]) ⟨8⟩ ⟨0⟩ 4) rfl
    (Or.inl (by simp [Cargo.segment, Cargo.payload])) (fun _ rest beyond => ?_) 5
  · have answered := answers.of_ok rfl
    rw [if_neg (by decide)] at answered
    exact ⟨_, _, arises, rfl, rfl, answered.2⟩
  · cases beyond

/-- The peer's FIN is not acknowledged again if it arrives with the acknowledgment of the own one. -/
theorem not_answers_content_crossed :
    ∃ (station : Station) (segment : Segment) (after : Connection),
      Arises Network.narrow ⟨4294967295⟩ station ∧
      station.connection.phase = .closing ∧ station.connection.phase.isSynchronized ∧
      Segment.decode (Cargo.fin.encode ⟨8⟩ ⟨1⟩ 4) = .ok segment ∧
      segment.header.flags.syn = false ∧ segment.header.flags.fin = true ∧ segment.payload = [] ∧
      station.connection.receive (Cargo.fin.encode ⟨8⟩ ⟨1⟩ 4) 5 = .ok after ∧
      after.phase = .terminated ∧ after.outbox = station.connection.outbox :=
  ⟨_, _, _, ⟨_, crossedFins, rfl, rfl⟩, rfl, rfl, Cargo.decode_encode .fin ⟨8⟩ ⟨1⟩ 4, rfl, rfl, rfl,
    rfl, rfl, rfl⟩

end Station
end ReliableTransport
