import ReliableTransport.Proofs.Connection.Transitions
import ReliableTransport.Proofs.Station.Attention
import ReliableTransport.Proofs.Station.Wire

/-!
# What was sent before the FIN

Whatever the peer does, each byte that was taken for sending was sent in some segment, and the FIN
is sent only when this is so.
-/

namespace ReliableTransport

open Fault Script

/-- A segment has the byte at a position of a stream, at its place behind the SYN. -/
inductive Segment.Holds (isn : SeqNum) (stream : Bytes) (position : Nat) (raw : Bytes) : Prop
  | intro {segment : Segment} {front back : Bytes} : Segment.decode raw = .ok segment →
      segment.header.flags = { ack := true } →
      segment.header.seq = isn.advance (1 + front.length) →
      stream = front ++ segment.payload ++ back → front.length ≤ position →
      position < front.length + segment.payload.length → Holds isn stream position raw

/-- Each byte of a stream is in some segment. -/
def Covers (isn : SeqNum) (stream : Bytes) (segments : List Bytes) : Prop :=
  ∀ position < stream.length, ∃ raw ∈ segments, Segment.Holds isn stream position raw

/-- A segment has the FIN flag. -/
def Segment.Finishes (raw : Bytes) : Prop :=
  ∃ segment, Segment.decode raw = .ok segment ∧ segment.header.flags.fin = true

namespace Covers

variable {isn : SeqNum} {stream : Bytes} {segments : List Bytes}

theorem append (covers : Covers isn stream segments) (more : List Bytes) :
    Covers isn stream (segments ++ more) := by
  intro position inside
  obtain ⟨raw, mem, holds⟩ := covers position inside
  exact ⟨raw, List.mem_append_left _ mem, holds⟩

theorem extend (covers : Covers isn stream segments) {raw : Bytes} {segment : Segment}
    (decoded : Segment.decode raw = .ok segment) (flags_eq : segment.header.flags = { ack := true })
    (seq_eq : segment.header.seq = isn.advance (1 + stream.length)) :
    Covers isn (stream ++ segment.payload) (segments ++ [raw]) := by
  intro position inside
  rw [List.length_append] at inside
  by_cases old : position < stream.length
  · obtain ⟨other, mem, holds⟩ := covers position old
    cases holds with
    | @intro held front back decoded flags_eq seq_eq stream_eq le lt =>
        have stream_eq : stream ++ segment.payload =
            front ++ held.payload ++ (back ++ segment.payload) := by
          rw [stream_eq]
          simp
        exact ⟨other, List.mem_append_left _ mem, .intro decoded flags_eq seq_eq stream_eq le lt⟩
  · exact ⟨raw, List.mem_append_right _ List.mem_cons_self, .intro decoded flags_eq seq_eq
      (List.append_nil _).symm (Nat.le_of_not_lt old) inside⟩

end Covers

namespace Station

variable {config : Config} {isn : SeqNum} {station after : Station} {ledger : Ledger}
  {settled now : Nat}

namespace Sound

theorem fin_mem_iff (sound : Sound config isn station ledger settled) :
    .fin ∈ ledger.script ↔ station.connection.finSeq.isSome = true := by
  rw [sound.connection.writes.finSeq_eq]
  split
  · simpa
  · simpa

theorem not_finishes (sound : Sound config isn station ledger settled)
    (unfinished : station.connection.finSeq = none) :
    ∀ raw ∈ station.sent, ¬ Segment.Finishes raw := by
  rintro raw mem ⟨segment, decoded, flagged⟩
  cases sound.connection.utters raw mem with
  | @cargo front back cargo ack script_eq =>
      rw [Cargo.decode_encode] at decoded
      obtain rfl := Except.ok.inj decoded
      cases cargo with
      | syn answers => cases flagged
      | data chunk => cases flagged
      | fin =>
          have written := sound.fin_mem_iff.mp (by simp [script_eq])
          simp [unfinished] at written
  | acknowledgment seq ack =>
      rw [Segment.decode_acknowledgment] at decoded
      obtain rfl := Except.ok.inj decoded
      cases flagged

theorem sendNext_eq (sound : Sound config isn station ledger settled)
    (unfinished : station.connection.finSeq = none) (script_ne : ledger.script ≠ []) :
    station.connection.sendNext = isn.advance (1 + station.taken.length) := by
  have writes := sound.connection.writes
  have unwritten : .fin ∉ ledger.script := by
    rw [sound.fin_mem_iff, unfinished]
    simp
  rw [writes.next_eq, writes.valid.extent_eq, if_neg script_ne, if_neg unwritten,
    sound.content_eq, Nat.add_zero]
  rw [show station.connection.isn = isn from sound.connection.isn_eq]

theorem finSeq_eq (sound : Sound config isn station ledger settled)
    (known : station.connection.finSeq.isSome = true) :
    station.connection.finSeq = some (isn.advance (1 + station.taken.length)) := by
  have writes := sound.connection.writes
  have written := sound.fin_mem_iff.mpr known
  rw [writes.finSeq_eq, if_pos written, writes.valid.extent_eq, if_pos written,
    if_neg (List.ne_nil_of_mem written), sound.content_eq, Nat.add_sub_cancel]
  rw [show station.connection.isn = isn from sound.connection.isn_eq]

end Sound

theorem Arises.finSeq_eq_none_of_receive (arises : Arises config isn station)
    (unfinished : station.connection.finSeq = none) {raw : Bytes}
    (done : station.undergo (.operate (.receive raw)) now = .ok after) :
    after.connection.finSeq = none := by
  obtain ⟨connection, received, after_eq⟩ := exists_of_undergo_operate done
  have connection_eq : after.connection = connection := by rw [after_eq]
  by_cases past : station.connection.phase = .terminated
  · rw [connection_eq]
    rcases Connection.receive_cases received with rfl | ⟨segment, -, taken⟩
    · exact unfinished
    · simp only [Connection.takeSegment, past] at taken
      obtain rfl := Except.ok.inj taken
      exact unfinished
  · obtain ⟨ledger, settled, sound⟩ := arises.sound
    obtain ⟨ledger', settled', sound'⟩ := (arises.undergo done).sound
    have open_before : station.connection.phase.finSent = false := by
      rw [← Bool.not_eq_true, ← sound.connection.admits.fin_mem_script_iff past,
        sound.fin_mem_iff, unfinished]
      simp
    have open_behind : connection.phase ≠ .terminated ∧ connection.phase.finSent = false := by
      rcases Connection.receive_phase received with same | moved
      · exact ⟨same ▸ past, same ▸ open_before⟩
      · cases phase_eq : station.connection.phase <;> rw [phase_eq] at open_before moved <;>
          simp_all [Phase.onSegment, Phase.finSent]
        rcases moved with moved | moved <;> simp [moved]
    rw [← connection_eq] at open_behind
    rw [← Option.not_isSome_iff_eq_none, ← sound'.fin_mem_iff,
      sound'.connection.admits.fin_mem_script_iff open_behind.1, open_behind.2]
    simp

theorem Arises.finSeq_eq_none (arises : Arises config isn station)
    (unfinished : station.connection.finSeq = none) {operation : Connection.Operation}
    (stays : operation ≠ .close) (done : station.undergo (.operate operation) now = .ok after) :
    after.connection.finSeq = none := by
  obtain ⟨connection, applied, after_eq⟩ := exists_of_undergo_operate done
  have connection_eq : after.connection = connection := by rw [after_eq]
  rw [connection_eq]
  cases operation with
  | openActive =>
      rw [Connection.apply, Connection.openActive] at applied
      split at applied
      · obtain ⟨asking, transmitted, applied⟩ := exists_of_bind_eq_ok applied
        obtain rfl := Except.ok.inj applied
        obtain ⟨flight, sendNext, rfl⟩ := Connection.eq_of_transmit transmitted
        exact unfinished
      · obtain rfl := Except.ok.inj applied
        exact unfinished
  | listen | abort =>
      obtain rfl := Except.ok.inj applied
      exact unfinished
  | send pending =>
      obtain ⟨⟨chunk, sent⟩, chunk_sent, applied⟩ := exists_of_bind_eq_ok applied
      obtain rfl := Except.ok.inj applied
      rcases (Connection.eq_of_sendChunk chunk_sent).2 with ⟨-, rfl⟩ | ⟨flight, sendNext, rfl⟩
      · exact unfinished
      · exact unfinished
  | close => exact absurd rfl stays
  | expire =>
      obtain ⟨⟨result, expired⟩, expires, applied⟩ := exists_of_bind_eq_ok applied
      obtain rfl := Except.ok.inj applied
      rcases Connection.expire_cases expires with
        ⟨-, rfl, -⟩ | ⟨-, rfl⟩ | ⟨segments, roundTrip, -, -, rfl⟩
      all_goals exact unfinished
  | receive raw => exact connection_eq ▸ arises.finSeq_eq_none_of_receive unfinished done

/-- What an end sent of its stream, as far as this was taken for sending. -/
inductive Coverage (isn : SeqNum) (station : Station) : Prop
  /-- The FIN was not sent, and everything else was. -/
  | ongoing : station.connection.finSeq = none → Covers isn station.taken station.sent →
      Coverage isn station
  /-- The FIN was sent, and everything else before it. -/
  | finished {before rest : List Bytes} {raw : Bytes} {segment : Segment} :
      station.sent = before ++ raw :: rest → Covers isn station.taken before →
      (∀ earlier ∈ before, ¬ Segment.Finishes earlier) → Segment.decode raw = .ok segment →
      segment.header.flags = { fin := true, ack := true } → segment.payload = [] →
      segment.header.seq = isn.advance (1 + station.taken.length) →
      station.connection.finSeq.isSome = true → Coverage isn station

namespace Coverage

/-- An end that did not send the FIN sends what it takes. -/
theorem send (covers : Covers isn station.taken station.sent)
    (sound : Sound config isn station ledger settled)
    (unfinished : station.connection.finSeq = none) {pending : Bytes}
    (done : station.undergo (.operate (.send pending)) now = .ok after) :
    Covers isn after.taken after.sent := by
  obtain ⟨connection, applied, rfl⟩ := exists_of_undergo_operate done
  obtain ⟨⟨chunk, sent⟩, chunk_sent, applied⟩ := exists_of_bind_eq_ok applied
  obtain rfl := Except.ok.inj applied
  obtain ⟨chunk_eq, sends⟩ := Connection.eq_of_sendChunk chunk_sent
  change Covers isn (station.taken ++ station.connection.nextChunk pending) _
  rw [← chunk_eq]
  rcases sends with ⟨rfl, rfl⟩ | ⟨flight, sendNext, rfl⟩
  · rw [List.append_nil]
    exact covers
  · by_cases empty : chunk = []
    · rw [empty, List.append_nil]
      simp only [Station.sent, ← List.append_assoc]
      exact covers.append _
    · have can : station.connection.canSend = true := by
        by_contra cannot
        rw [Connection.nextChunk, if_neg cannot] at chunk_eq
        exact empty chunk_eq
      have synchronized := Phase.synchronized_of_sending (Connection.isSending_of_canSend can)
      have seq_eq := sound.sendNext_eq unfinished
        (sound.connection.admits.script_ne synchronized)
      simp only [Station.sent, ← List.append_assoc]
      exact covers.extend (Segment.decode_encode _ chunk) rfl seq_eq

theorem close (covers : Covers isn station.taken station.sent)
    (sound : Sound config isn station ledger settled)
    (unfinished : station.connection.finSeq = none)
    (done : station.undergo (.operate .close) now = .ok after) : Coverage isn after := by
  obtain ⟨connection, applied, rfl⟩ := exists_of_undergo_operate done
  have taken_eq : station.taken ++ station.connection.takenBy .close = station.taken :=
    List.append_nil _
  rw [taken_eq]
  rcases Connection.eq_of_close applied with rfl | ⟨-, rfl⟩ | ⟨opened, flight, sendNext, rfl⟩
  · exact .ongoing unfinished covers
  · exact .ongoing unfinished covers
  · have script_ne : ledger.script ≠ [] := by
      have admits := sound.connection.admits
      rcases opened with phase_eq | phase_eq | phase_eq <;> rw [phase_eq] at admits
      · simp [admits.1]
      · exact admits.1
      · exact admits.1
    exact .finished (List.append_assoc _ _ _).symm covers (sound.not_finishes unfinished)
      (Segment.decode_encode _ _) rfl rfl (sound.sendNext_eq unfinished script_ne) rfl

/-- Whatever happens, what was sent stays, and the FIN comes behind everything else. -/
theorem undergo (coverage : Coverage isn station) (arises : Arises config isn station)
    {occurrence : Occurrence} (done : station.undergo occurrence now = .ok after) :
    Coverage isn after := by
  obtain ⟨ledger, settled, sound⟩ := arises.sound
  obtain ⟨queued, sent_eq, -⟩ := undergo_answers done
  cases coverage with
  | ongoing unfinished covers =>
      cases occurrence with
      | emit =>
          obtain rfl := Except.ok.inj done
          refine .ongoing (by rw [connection_emit]; exact unfinished) ?_
          rw [sent_emit, emit]
          split <;> exact covers
      | hear =>
          obtain rfl := Except.ok.inj done
          refine .ongoing (by rw [connection_hear]; exact unfinished) ?_
          rw [sent_hear, hear]
          split <;> exact covers
      | operate operation =>
          by_cases stays : operation = .close
          · subst stays
            exact close covers sound unfinished done
          · refine .ongoing (arises.finSeq_eq_none unfinished stays done) ?_
            by_cases sends : ∃ pending, operation = .send pending
            · obtain ⟨pending, rfl⟩ := sends
              exact send covers sound unfinished done
            · obtain ⟨connection, -, rfl⟩ := exists_of_undergo_operate done
              have idle : station.connection.takenBy operation = [] := by
                cases operation <;> first | rfl | simp at sends
              simp only [idle, List.append_nil] at sent_eq ⊢
              rw [sent_eq]
              exact covers.append queued
  | @finished before rest raw segment split covers clean decoded flags_eq payload_eq seq_eq known =>
      have written := sound.fin_mem_iff.mpr known
      have lived : station.live [(occurrence, now)] = .ok after := by
        rw [live_cons, done]
        rfl
      obtain ⟨ledger', settled', sound', isFront⟩ := (sound.undergo occurrence now).of_ok done
      have taken_eq := sound.taken_eq_of_live written lived
      have split : after.sent = before ++ raw :: (rest ++ queued) := by
        rw [sent_eq, split]
        simp
      exact .finished split (taken_eq ▸ covers) clean decoded flags_eq payload_eq
        (taken_eq ▸ seq_eq) (sound'.fin_mem_iff.mp (isFront.subset written))

end Coverage

/-- Every end sends what it takes, and the FIN behind everything else. -/
theorem Arises.coverage (arises : Arises config isn station) : Coverage isn station := by
  obtain ⟨connection, history, created, lived⟩ := arises
  refine (live_induction (fun later => Arises config isn later ∧ Coverage isn later)
    (fun kept happened => ⟨kept.1.undergo happened, kept.2.undergo kept.1 happened⟩)
    ⟨⟨connection, [], created, rfl⟩, ?_⟩ lived).2
  obtain ⟨window, -, rfl⟩ := Connection.eq_of_create created
  exact .ongoing rfl (by simp [Covers])

/-- The FIN is sent on request only. -/
theorem Arises.closing (arises : Arises config isn station)
    (known : station.connection.finSeq.isSome = true) : station.closing = true := by
  obtain ⟨connection, history, created, lived⟩ := arises
  refine (live_induction
    (fun later => Arises config isn later ∧
      (later.connection.finSeq.isSome = true → later.closing = true))
    (fun {station after occurrence now} kept happened => ⟨kept.1.undergo happened, fun known => ?_⟩)
    ⟨⟨connection, [], created, rfl⟩, ?_⟩ lived).2 known
  · obtain ⟨arises, closing⟩ := kept
    cases occurrence with
    | emit =>
        obtain rfl := Except.ok.inj happened
        rw [connection_emit] at known
        rw [emit]
        split <;> exact closing known
    | hear =>
        obtain rfl := Except.ok.inj happened
        rw [connection_hear] at known
        rw [hear]
        split <;> exact closing known
    | operate operation =>
        obtain ⟨later, -, after_eq⟩ := exists_of_undergo_operate happened
        have closing_eq : after.closing = (station.closing || operation = .close) := by
          rw [after_eq]
        rw [closing_eq]
        by_cases stays : operation = .close
        · simp [stays]
        · have known : station.connection.finSeq.isSome = true := by
            by_contra unknown
            have unknown : station.connection.finSeq = none := by simpa using unknown
            simp [arises.finSeq_eq_none unknown stays happened] at known
          rw [closing known, Bool.true_or]
  · obtain ⟨window, -, rfl⟩ := Connection.eq_of_create created
    simp

end Station
end ReliableTransport
