import ReliableTransport.Proofs.Connection.Transitions
import ReliableTransport.Proofs.Station.Attention

/-!
# Before the handshake

An end that knows nothing of its peer sends its SYN at most and acknowledges nothing.  It leaves
this state by one segment, whose SYN tells the position of the peer's stream.
-/

namespace ReliableTransport

open Fault Script

/-- The bytes of a SYN that answers nothing. -/
def Segment.IsPlainSyn (raw : Bytes) : Prop :=
  ∃ seq ack window, raw = (Cargo.syn false).encode seq ack window

theorem Segment.IsPlainSyn.flags_eq {raw : Bytes} (plain : IsPlainSyn raw) {segment : Segment}
    (decoded : decode raw = .ok segment) : segment.header.flags = { syn := true } := by
  obtain ⟨seq, ack, window, rfl⟩ := plain
  rw [Cargo.decode_encode] at decoded
  obtain rfl := Except.ok.inj decoded
  rfl

theorem Connection.Meets.recvNext_eq {connection after : Connection} {segment : Segment}
    (meets : connection.Meets segment after) : after.recvNext = segment.header.seq.advance 1 := by
  rw [recvNext, meets.window_eq]
  rfl

namespace Station

variable {config : Config} {isn : SeqNum} {station after : Station} {now : Nat}

theorem mem_sent_of_mem_wire {raw : Bytes} (mem : raw ∈ station.wire) : raw ∈ station.sent :=
  List.mem_append_left _ mem

/-- An end that knows nothing of its peer: at most it asked for a connection. -/
structure Mute (station : Station) : Prop where
  /-- The handshake is not made, or never will be. -/
  phase : station.connection.phase.isOpening = true ∨ station.connection.phase = .terminated
  /-- Nothing was sent but the SYN. -/
  plain : ∀ raw ∈ station.sent, Segment.IsPlainSyn raw

namespace Mute

theorem create {connection : Connection} (created : Connection.create config isn = .ok connection) :
    Mute { connection } := by
  obtain ⟨window, -, rfl⟩ := Connection.eq_of_create created
  exact ⟨Or.inl rfl, by simp [sent]⟩

theorem of_sent_eq (mute : station.Mute) (sent_eq : after.sent = station.sent)
    (phase : after.connection.phase.isOpening = true ∨ after.connection.phase = .terminated) :
    after.Mute :=
  ⟨phase, by rw [sent_eq]; exact mute.plain⟩

theorem of_sent_append (mute : station.Mute) {queued : List Bytes}
    (sent_eq : after.sent = station.sent ++ queued)
    (plain : ∀ raw ∈ queued, Segment.IsPlainSyn raw)
    (phase : after.connection.phase.isOpening = true ∨ after.connection.phase = .terminated) :
    after.Mute := by
  refine ⟨phase, fun raw mem => ?_⟩
  rw [sent_eq] at mem
  exact (List.mem_append.mp mem).elim (mute.plain raw) (plain raw)

theorem nextChunk_eq_nil (mute : station.Mute) (pending : Bytes) :
    station.connection.nextChunk pending = [] := by
  have closed : station.connection.canSend = false := by
    rw [Connection.canSend]
    rcases mute.phase with opening | past
    · cases phase_eq : station.connection.phase <;> simp_all [Phase.isOpening, Phase.isSending]
    · simp [past, Phase.isSending]
  exact Connection.nextChunk_of_not_canSend closed pending

/-- What a mute end sends again is its SYN. -/
theorem resent (mute : station.Mute) (arises : Arises config isn station)
    {segments : List Outstanding}
    (done : station.connection.flight.segments.mapM
      (·.resend now station.connection.recvNext) = .ok segments) :
    ∀ raw ∈ segments.map (·.raw), Segment.IsPlainSyn raw := by
  obtain ⟨ledger, settled, sound⟩ := arises.sound
  have writes := sound.connection.writes
  have admits := sound.connection.admits
  intro raw mem
  obtain ⟨front, cargo, back, script_eq, rfl⟩ := (writes.resend done station.connection.roundTrip
    station.connection.outbox).2 raw mem
  rcases mute.phase with opening | past
  · cases phase_eq : station.connection.phase <;> rw [phase_eq] at opening admits
    case closed => simp [admits.1] at script_eq
    case synSent =>
      have mem : cargo ∈ ledger.script := by simp [script_eq]
      rw [admits.1, List.mem_singleton] at mem
      subst mem
      exact ⟨_, _, _, rfl⟩
    all_goals cases opening
  · rw [writes.cleared past] at done
    obtain rfl := Except.ok.inj done
    cases mem

end Mute

/-- What a mute end does: it stays mute, or it meets its peer by a SYN that is plain where it did
not ask itself and answers its own otherwise. -/
inductive Awakes (station : Station) (occurrence : Occurrence) (after : Station) : Prop
  /-- It stays mute. -/
  | mute : after.Mute → Awakes station occurrence after
  /-- It meets its peer. -/
  | meets {raw : Bytes} {segment : Segment} : occurrence = .operate (.receive raw) →
      Segment.decode raw = .ok segment →
      station.connection.Meets segment after.connection →
      (segment.header.flags = { syn := true } ∧ after.connection.phase = .synReceived ∧
          station.connection.phase = .closed ∨
        segment.AnswersSyn station.connection.isn ∧ after.connection.phase = .established ∧
          station.connection.phase = .synSent) →
      Awakes station occurrence after

/-- A mute end takes nothing but a SYN, and its answer meets the peer. -/
theorem Mute.receive (mute : station.Mute) {raw : Bytes}
    (done : station.undergo (.operate (.receive raw)) now = .ok after) :
    station.Awakes (.operate (.receive raw)) after := by
  obtain ⟨connection, received, rfl⟩ := exists_of_undergo_operate done
  have still (same : connection = station.connection) :
      Awakes station (.operate (.receive raw))
        { station with
          connection
          taken := station.taken ++ station.connection.takenBy (.receive raw)
          closing := station.closing || (.receive raw : Connection.Operation) = .close } :=
    .mute (mute.of_sent_eq (by rw [same]; rfl) (by rw [same]; exact mute.phase))
  rcases Connection.receive_cases received with same | ⟨segment, decoded, taken⟩
  · exact still same
  -- an end that leaves an opening phase and goes on has met its peer
  have meets (opening : station.connection.phase.isOpening = true)
      (opened : connection.phase.isOpening = false)
      (running : connection.phase ≠ .terminated) :
      station.connection.Meets segment connection := by
    cases Connection.receive_learns received with
    | nothing rests =>
        have phase := rests.phase
        simp [opening, opened, running] at phase
    | handshake operation_eq decoded' meets =>
        obtain rfl := Connection.Operation.receive.inj operation_eq
        obtain rfl := Except.ok.inj (decoded.symm.trans decoded')
        exact meets
    | content _ _ other _ _ => simp [opening] at other
  have phase := mute.phase
  cases phase_eq : station.connection.phase <;> rw [phase_eq] at phase
  case closed =>
    simp only [Connection.takeSegment, phase_eq] at taken
    rcases Connection.takeClosed_answers taken with same | ⟨plain, answered⟩
    · exact still same
    · have meets := meets (by rw [phase_eq]; rfl) (by rw [answered]; rfl)
        (by simp [answered])
      exact .meets rfl decoded meets (Or.inl ⟨plain, answered, phase_eq⟩)
  case synSent =>
    simp only [Connection.takeSegment, phase_eq] at taken
    rcases Connection.takeSynSent_answers taken with same | ⟨answers, established⟩
    · exact still same
    · have meets := meets (by rw [phase_eq]; rfl) (by rw [established]; rfl)
        (by simp [established])
      exact .meets rfl decoded meets (Or.inr ⟨answers, established, phase_eq⟩)
  case terminated =>
    simp only [Connection.takeSegment, phase_eq] at taken
    exact still (Except.ok.inj taken).symm
  all_goals simp [Phase.isOpening] at phase

/-- Whatever happens, a mute end stays mute or meets its peer. -/
theorem Mute.undergo (mute : station.Mute) (arises : Arises config isn station)
    {occurrence : Occurrence} (done : station.undergo occurrence now = .ok after) :
    station.Awakes occurrence after := by
  cases occurrence with
  | emit =>
      obtain rfl := Except.ok.inj done
      exact .mute (mute.of_sent_eq station.sent_emit (by rw [connection_emit]; exact mute.phase))
  | hear =>
      obtain rfl := Except.ok.inj done
      exact .mute (mute.of_sent_eq station.sent_hear (by rw [connection_hear]; exact mute.phase))
  | operate operation =>
      obtain ⟨connection, applied, rfl⟩ := exists_of_undergo_operate done
      cases operation with
      | openActive =>
          rw [Connection.apply, Connection.openActive] at applied
          split at applied
          · obtain ⟨asking, transmitted, applied⟩ := exists_of_bind_eq_ok applied
            obtain ⟨flight, sendNext, rfl⟩ := Connection.eq_of_transmit transmitted
            obtain rfl := Except.ok.inj applied
            refine .mute (mute.of_sent_append (List.append_assoc ..).symm (fun raw mem => ?_)
              (Or.inl rfl))
            obtain rfl := List.mem_singleton.mp mem
            exact ⟨_, _, _, rfl⟩
          · obtain rfl := Except.ok.inj applied
            exact .mute (mute.of_sent_eq rfl mute.phase)
      | listen =>
          obtain rfl := Except.ok.inj applied
          exact .mute (mute.of_sent_eq rfl mute.phase)
      | send pending =>
          obtain ⟨⟨chunk, sent⟩, chunk_sent, applied⟩ := exists_of_bind_eq_ok applied
          obtain rfl := Except.ok.inj applied
          rw [Connection.sendChunk_of_nil (mute.nextChunk_eq_nil pending)] at chunk_sent
          obtain ⟨-, rfl⟩ := Prod.mk.inj (Except.ok.inj chunk_sent)
          exact .mute (mute.of_sent_eq rfl mute.phase)
      | close =>
          rcases Connection.eq_of_close applied with rfl | ⟨-, rfl⟩ | ⟨opened, -⟩
          · exact .mute (mute.of_sent_eq rfl mute.phase)
          · exact .mute (mute.of_sent_eq rfl (Or.inr rfl))
          · rcases opened with phase_eq | phase_eq | phase_eq <;>
              simpa [phase_eq, Phase.isOpening] using mute.phase
      | abort =>
          obtain rfl := Except.ok.inj applied
          exact .mute (mute.of_sent_eq rfl (Or.inr rfl))
      | expire =>
          obtain ⟨⟨result, expired⟩, expires, applied⟩ := exists_of_bind_eq_ok applied
          obtain rfl := Except.ok.inj applied
          rcases Connection.expire_cases expires with
            ⟨-, rfl, -⟩ | ⟨-, rfl⟩ | ⟨segments, roundTrip, resent, -, rfl⟩
          · exact .mute (mute.of_sent_eq rfl mute.phase)
          · exact .mute (mute.of_sent_eq rfl (Or.inr rfl))
          · exact .mute (mute.of_sent_append (List.append_assoc ..).symm
              (mute.resent arises resent) mute.phase)
      | receive raw => exact mute.receive done

theorem Mute.becomes (mute : station.Mute) (arises : Arises config isn station)
    (becomes : Becomes [] station after) : after.Mute := by
  induction becomes with
  | refl => exact mute
  | tail past moves ih =>
      obtain ⟨occurrence, now, done, arrives⟩ := moves
      cases ih.undergo (Becomes.arises past arises) done with
      | mute mute => exact mute
      | meets occurrence_eq _ _ _ => cases arrives _ occurrence_eq

end Station
end ReliableTransport
