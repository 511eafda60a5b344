import ReliableTransport.Connection.Operation
import ReliableTransport.Proofs.Connection.Receiving
import ReliableTransport.Proofs.Connection.Writing
import ReliableTransport.Proofs.ReceiveWindow

/-!
# A connection and any peer

Whatever arrives, a connection stays sound: it has a ledger that its phase fits to, it says nothing
but what it wrote and acknowledgments, and it tells of the end of the peer's stream at most once.
Only a size beyond 32 bits or a length of time can stop it.
-/

namespace ReliableTransport

open Fault Script

namespace Script

/-- The segments of an end with a script: its entries at their places and acknowledgments, with
whatever acknowledgment numbers. -/
inductive Utters (isn : SeqNum) (window : UInt16) (script : List Cargo) : Bytes → Prop
  /-- An entry of the script at its place. -/
  | cargo {front back : List Cargo} {cargo : Cargo} (ack : SeqNum) :
      script = front ++ cargo :: back →
      Utters isn window script (cargo.encode (isn.advance (extent front)) ack window)
  /-- Nothing but an acknowledgment. -/
  | acknowledgment (seq ack : SeqNum) :
      Utters isn window script (Segment.acknowledgment seq ack window)

theorem Utters.mono {isn : SeqNum} {window : UInt16} {script later : List Cargo} {raw : Bytes}
    (utters : Utters isn window script raw) (isFront : script <+: later) :
    Utters isn window later raw := by
  cases utters with
  | cargo ack split =>
      obtain ⟨more, rfl⟩ := isFront
      exact .cargo ack (by rw [split, List.append_assoc, List.cons_append])
  | acknowledgment seq ack => exact .acknowledgment seq ack

end Script

namespace Ledger

/-- More was written, and some bytes of the stream with it. -/
structure Grows (ledger later : Ledger) (bytes : Bytes) : Prop where
  /-- What was written stays. -/
  script : ledger.script <+: later.script
  /-- The bytes continue the stream. -/
  content_eq : content later.script = content ledger.script ++ bytes

theorem Grows.refl (ledger : Ledger) : ledger.Grows ledger [] :=
  ⟨List.prefix_refl _, (List.append_nil _).symm⟩

theorem Grows.of_eq {ledger later : Ledger} (script_eq : later.script = ledger.script) :
    ledger.Grows later [] where
  script := by rw [script_eq]
  content_eq := by rw [script_eq, List.append_nil]

/-- Both streams are complete, and of the own one at most the FIN is not acknowledged. -/
def Done (ledger : Ledger) (settled : Nat) : Prop :=
  .fin ∈ ledger.script ∧ .fin ∈ ledger.received ∧ extent ledger.script ≤ settled + 1

end Ledger

/-- What a connection was created with, and what others took from it before. -/
structure Background where
  /-- Its parameters. -/
  config : Config
  /-- Its initial sequence number. -/
  isn : SeqNum
  /-- Segments that were taken from its outbox. -/
  wire : List Bytes
  /-- Events that were taken from it. -/
  heard : List AppEvent

namespace Connection

/-- A connection has a ledger, of which a position is settled. -/
structure Sound (connection : Connection) (background : Background) (ledger : Ledger)
    (settled : Nat) : Prop where
  /-- Its parameters stayed. -/
  config_eq : connection.config = background.config
  /-- Its initial sequence number stayed. -/
  isn_eq : connection.isn = background.isn
  /-- It has written its script. -/
  writes : connection.Writes ledger.script ledger.acked settled
  /-- Its phase fits to what was written and received. -/
  admits : connection.phase.Admits ledger
  /-- It never said anything but its script and acknowledgments. -/
  utters : ∀ raw ∈ background.wire ++ connection.outbox,
    Utters background.isn background.config.receiveWindow ledger.script raw
  /-- It told of the end of the peer's stream when this was received. -/
  told : (background.heard ++ connection.events).count .peerFinished =
    if .fin ∈ ledger.received then 1 else 0

/-- A connection went on to be sound, and sent some bytes of its stream. -/
def Continues (ledger : Ledger) (background : Background) (bytes : Bytes) (after : Connection) :
    Prop :=
  ∃ ledger' settled', after.Sound background ledger' settled' ∧ ledger.Grows ledger' bytes

variable {connection : Connection} {background : Background} {ledger : Ledger} {settled : Nat}

namespace Sound

theorem continues {after : Connection} {settled' : Nat}
    (sound : after.Sound background ledger settled') : Continues ledger background [] after :=
  ⟨ledger, settled', sound, .refl ledger⟩

theorem listen (sound : connection.Sound background ledger settled) :
    connection.listen.Sound background ledger settled :=
  { sound with writes := { sound.writes with valid := sound.writes.valid } }

theorem abort (sound : connection.Sound background ledger settled) :
    connection.abort.Sound background ledger settled :=
  { sound with
    writes := sound.writes.abort
    admits := trivial }

theorem sendAck (sound : connection.Sound background ledger settled) :
    connection.sendAck.Sound background ledger settled :=
  { sound with
    writes := { sound.writes with valid := sound.writes.valid }
    utters := by
      intro raw mem
      rw [Connection.sendAck, ← List.append_assoc] at mem
      rcases List.mem_append.mp mem with mem | mem
      · exact sound.utters raw mem
      · obtain rfl := List.mem_singleton.mp mem
        rw [← sound.config_eq]
        exact .acknowledgment connection.sendNext connection.recvNext }

/-- The next entry is written. -/
theorem write (sound : connection.Sound background ledger settled) {after : Connection}
    {cargo : Cargo} {received : List Cargo}
    (writes : after.Writes (ledger.script ++ [cargo]) ledger.acked settled)
    (admits : after.phase.Admits ⟨ledger.script ++ [cargo], ledger.acked, received⟩)
    (config_eq : after.config = connection.config) (isn_eq : after.isn = connection.isn)
    (outbox_eq : ∃ ack, after.outbox = connection.outbox ++
      [cargo.encode connection.sendNext ack connection.config.receiveWindow])
    (events_eq : after.events = connection.events)
    (fin_iff : .fin ∈ received ↔ .fin ∈ ledger.received) :
    Continues ledger background cargo.payload after := by
  obtain ⟨ack, outbox_eq⟩ := outbox_eq
  have isFront : ledger.script <+: ledger.script ++ [cargo] := List.prefix_append _ _
  refine ⟨_, settled, ⟨config_eq.trans sound.config_eq, isn_eq.trans sound.isn_eq, writes, admits,
    ?_, ?_⟩, isFront, by simp⟩
  · intro raw mem
    rw [outbox_eq, ← List.append_assoc] at mem
    rcases List.mem_append.mp mem with mem | mem
    · exact (sound.utters raw mem).mono isFront
    · obtain rfl := List.mem_singleton.mp mem
      rw [sound.writes.next_eq, sound.isn_eq, sound.config_eq]
      exact .cargo ack rfl
  · simp only [events_eq, fin_iff]
    exact sound.told

theorem openActive (sound : connection.Sound background ledger settled) (now : Nat) :
    ∃ after, connection.openActive now = .ok after ∧ Continues ledger background [] after := by
  rw [Connection.openActive]
  by_cases closed : connection.phase = .closed
  · have admits := sound.admits
    rw [closed] at admits
    obtain ⟨script_eq, received_eq⟩ := admits
    have finSeq_eq : connection.finSeq =
        if .fin ∈ ledger.script ++ [.syn false] then
          some (connection.isn.advance (extent (ledger.script ++ [.syn false]) - 1)) else none := by
      rw [sound.writes.finSeq_eq]
      simp [script_eq]
    obtain ⟨flight, transmitted, writes⟩ := sound.writes.transmit
      (by simp [closed]) (.syn false) (by rw [script_eq]; exact .syn false)
      (by simp only [script_eq, reach, List.nil_append, extent_cons, extent_nil,
            Cargo.length_syn]; omega)
      (by simp) finSeq_eq (show Phase.synSent ≠ .terminated by decide) now
    have transmitted : connection.transmit { syn := true } [] now = .ok _ := transmitted
    rw [if_pos closed, transmitted]
    refine ⟨_, rfl, sound.write writes ⟨by rw [script_eq]; rfl, received_eq⟩ rfl rfl
      ⟨_, rfl⟩ rfl Iff.rfl⟩
  · rw [if_neg closed]
    exact ⟨connection, rfl, sound.continues⟩

/-- Sending pending bytes writes the bytes that are taken. -/
theorem sendChunk (sound : connection.Sound background ledger settled) (pending : Bytes)
    (now : Nat) :
    ∃ after, connection.sendChunk pending now = .ok (connection.nextChunk pending, after) ∧
      Continues ledger background (connection.nextChunk pending) after := by
  have script_ne (can : connection.canSend) : ledger.script ≠ [] :=
    sound.admits.script_ne (Phase.synchronized_of_sending (isSending_of_canSend can))
  rcases sound.writes.sendChunk script_ne pending now with
      ⟨empty, idle⟩ | ⟨flight, -, can, -, sent, writes⟩
  · rw [empty]
    exact ⟨connection, idle, sound.continues⟩
  · exact ⟨_, sent, sound.write writes (sound.admits.write (isSending_of_canSend can) _) rfl rfl
      ⟨_, rfl⟩ rfl Iff.rfl⟩

theorem close (sound : connection.Sound background ledger settled) (now : Nat) :
    ∃ after, connection.close now = .ok after ∧ Continues ledger background [] after := by
  have finish (opened : connection.phase = .synReceived ∨ connection.phase = .established ∨
        connection.phase = .closeWait) : ∃ fin, connection.sendFin now = .ok fin ∧
        Continues ledger background []
          { fin with phase := if connection.phase = .closeWait then .lastAck else .finWait1 } := by
    have running : connection.phase ≠ .terminated := by
      intro ended
      simp [ended] at opened
    have next_ne : (if connection.phase = .closeWait then Phase.lastAck else .finWait1) ≠
        .terminated := by
      split <;> decide
    obtain ⟨unfinished, script_ne, -, admits⟩ :=
      sound.admits.writeFin sound.writes.acked_isPrefix opened
    obtain ⟨flight, sent, writes⟩ :=
      sound.writes.sendFin running script_ne unfinished next_ne now
    exact ⟨_, sent, sound.write writes admits rfl rfl ⟨_, rfl⟩ rfl Iff.rfl⟩
  cases phase_eq : connection.phase with
  | closed | synSent =>
      refine ⟨connection.abort, ?_, sound.abort.continues⟩
      simp only [Connection.close, phase_eq]
  | synReceived | established | closeWait =>
      obtain ⟨fin, sent, continues⟩ := finish (by simp [phase_eq])
      refine ⟨_, ?_, continues⟩
      simp only [Connection.close, phase_eq, sent]
      rfl
  | finWait1 | finWait2 | lastAck | closing | terminated =>
      refine ⟨connection, ?_, sound.continues⟩
      simp only [Connection.close, phase_eq]

theorem done_of_onlyFinalFin (sound : connection.Sound background ledger settled)
    (only : connection.onlyFinalFin = true) : ledger.Done settled := by
  simp only [onlyFinalFin, Bool.and_eq_true, Bool.or_eq_true, decide_eq_true_eq] at only
  obtain ⟨waiting, finSeq_eq⟩ := only
  have admits := sound.admits
  obtain ⟨written, finished⟩ : .fin ∈ ledger.script ∧ .fin ∈ ledger.received := by
    rcases waiting with waiting | waiting
    · rw [waiting] at admits
      exact ⟨admits.1, admits.2.2.2⟩
    · rw [waiting] at admits
      exact ⟨admits.1, admits.2.2.2⟩
  have extent_le := sound.writes.extent_le
  have settled_le := sound.writes.settled_le
  rw [sound.writes.finSeq_eq, if_pos written, sound.writes.unacked_eq] at finSeq_eq
  have position_eq := (SeqNum.advance_inj connection.isn (by omega) (by omega)).mp
    (Option.some.inj finSeq_eq)
  exact ⟨written, finished, by omega⟩

/-- Resending writes what is outstanding once more. -/
theorem resend (sound : connection.Sound background ledger settled) {now : Nat}
    {segments : List Outstanding}
    (done : connection.flight.segments.mapM (·.resend now connection.recvNext) = .ok segments)
    (roundTrip : RoundTrip) :
    Sound
      { connection with
        flight := ⟨segments⟩
        roundTrip
        outbox := connection.outbox ++ segments.map (·.raw) } background ledger settled := by
  obtain ⟨writes, written⟩ :=
    sound.writes.resend done roundTrip (connection.outbox ++ segments.map (·.raw))
  refine { sound with writes, utters := ?_ }
  intro raw mem
  rw [← List.append_assoc] at mem
  rcases List.mem_append.mp mem with mem | mem
  · exact sound.utters raw mem
  · obtain ⟨front, cargo, back, split, rfl⟩ := written raw mem
    rw [sound.isn_eq, sound.config_eq]
    exact .cargo connection.recvNext split

/-- An expired deadline ends the connection or writes what is outstanding once more.  It fails if a
resend cannot be counted or the doubled timeout leaves its range. -/
theorem expire (sound : connection.Sound background ledger settled) (now : Nat) :
    Ensures
      (fun fault => fault = .duration ∧ Duration.limit ≤ connection.roundTrip.timeout * 2 ∨
        fault = .count ∧ ∃ segment ∈ connection.flight.segments, UInt32.size ≤ segment.retries + 1)
      (fun (result, after) => after.Sound background ledger settled ∧
        (result = .ok () → after.phase = .terminated →
          connection.phase = .terminated ∨ ledger.Done settled))
      (connection.expire now) := by
  cases expired : connection.expire now with
  | ok outcome =>
      obtain ⟨result, after⟩ := outcome
      rcases expire_cases expired with
          ⟨-, rfl, -⟩ | ⟨result_eq, rfl⟩ | ⟨segments, roundTrip, resent, -, rfl⟩
      · exact ⟨sound, fun _ => Or.inl⟩
      · refine ⟨sound.abort, fun orderly _ => Or.inr (sound.done_of_onlyFinalFin ?_)⟩
        by_contra more
        rw [if_neg more, orderly] at result_eq
        cases result_eq
      · exact ⟨sound.resend resent roundTrip, fun _ => Or.inl⟩
  | error fault =>
      rw [Connection.expire] at expired
      split at expired
      · cases expired
      split at expired
      · cases expired
      rcases error_of_bind_eq_error expired with failed | ⟨after, -, failed⟩
      · rcases error_of_bind_eq_error failed with uncounted | ⟨flight, -, failed⟩
        · rcases error_of_bind_eq_error uncounted with uncounted | ⟨segments, -, failed⟩
          · right
            by_cases running : connection.phase = .terminated
            · rw [sound.writes.cleared running] at uncounted
              cases uncounted
            · obtain ⟨rest, -, carries⟩ := sound.writes.carries running
              exact carries.mapM_resend_error uncounted
          · cases failed
        · left
          split at failed
          · rcases error_of_bind_eq_error failed with doubled | ⟨roundTrip, -, failed⟩
            · refine ⟨RoundTrip.checked_bind_error doubled (fun _ failed => by cases failed), ?_⟩
              by_contra small
              rw [RoundTrip.backOff, RoundTrip.checked_eq (Nat.lt_of_not_le small)] at doubled
              cases doubled
            · cases failed
          · cases failed
      · cases failed

end Sound
end Connection
end ReliableTransport
